import EmailVerifier.Pacer.Conduct
import EmailVerifier.Pacer.Sections

/-! The working point stays in its band. -/

set_option autoImplicit false

namespace EmailVerifier.Pacer
open Text Data Semantics

structure MXState.InBand (st : MXState) : Prop where
  ordered : st.band.Ordered
  low : st.band.minRate ≤ st.rate
  high : st.rate ≤ st.band.maxRate
  few : st.band.minConc ≤ st.conc
  many : st.conc ≤ st.band.maxConc

/-- The count of concurrent sessions can be raised without running over. -/
abbrev Band.Roomy (band : Band) : Prop := band.maxConc < 2 ^ 63 - 1

def lastRead (read : Option (Str × Got)) : Event calls → Option (Str × Got)
  | ⟨.get key, got⟩ => some (key, got)
  | _ => read

section
variable [Unicode] [Codec]

/-- A key is loaded with a band in order, at the rate that its saved rate gives. -/
def Loads (read : Option (Str × Got)) : Op → Prop
  | .locked (.install key band start) =>
    band.Ordered ∧ ∃ got, read = some (runtimeKey key "rate", got) ∧ start = startRate band (rateIn got)
  | _ => True

abbrev Careful : World calls (Option (Str × Got)) := World.guarded (fun read e => Loads read e.op) lastRead

/-- Operations that load nothing. -/
abbrev Loadless (o : Op) : Prop := ∀ read, Loads read o

variable {key domain : Str} {A : Type}

omit [Unicode] in
lemma loadless_careful {p : Act A} {read : Option (Str × Got)} (only : p.Only Loadless) :
    p.Follows Careful (fun _ _ => True) read :=
  only.heed fun read _ fine => fine read

lemma shipped_normal (key domain : Str) : (shipped key domain).Normal := by
  unfold shipped
  split
  · rename_i found
    split at found
    · exact readSeed_normal found
    · cases found
  · cases found : seedFor domain with
    | none => exact Band.conservative_normal
    | some b => exact seedFrom_normal found

lemma bandIn_normal (key domain : Str) (got : Got) : ((bandIn got).getD (shipped key domain)).Normal := by
  cases found : bandIn got with
  | none => exact shipped_normal key domain
  | some b =>
    unfold bandIn at found
    split at found
    · obtain ⟨raw, -, rfl⟩ := Option.map_eq_some_iff.mp found
      exact raw.normalise_normal
    · cases found

lemma stateFor_careful {f : Nat → Act A} {read : Option (Str × Got)} (rest : ∀ ref, (f ref).Only Loadless) :
    (stateFor key domain >>= f).Follows Careful (fun _ _ => True) read := by
  apply Prog.Follows.bind
  apply Prog.Follows.heed (fun _ => trivial)
  intro found
  cases found with
  | some ref => exact loadless_careful (rest ref)
  | none =>
    apply Prog.Follows.heed (fun _ => trivial)
    intro limits
    -- The read of the saved rate is the last one before the entry is made.
    apply Prog.Follows.heed (fun _ => trivial)
    intro got
    apply Prog.Follows.heed (fun _ => ⟨(bandIn_normal key domain limits).toOrdered, got, rfl, rfl⟩)
    intro ref
    exact loadless_careful (rest ref)

omit [Unicode] in
lemma tame_loadless (op : Op) (tame : op.tame) : Loadless op := by
  intro read
  cases op with
  | locked sec =>
    cases sec with
    | install key band start => cases tame.2
    | _ => trivial
  | _ => trivial

omit [Unicode] in
lemma ask_loadless {op : Op} {f : op.Answer → Act A} (rest : ∀ a, (f a).Only Loadless)
    (fine : Loadless op := by exact fun _ => trivial) : (Prog.ask (I := calls) op >>= f).Only Loadless :=
  .bind ((Prog.only_ask _).mpr fine) rest

omit [Unicode] in
lemma persist_loadless (key : Str) (st : MXState) : (persist key st).Only Loadless := by
  refine ask_loadless fun _ => ?_
  refine ask_loadless fun _ => ?_
  refine ask_loadless fun _ => ?_
  split
  · exact ask_loadless fun _ => Prog.only_pure _
  · exact Prog.only_pure _

lemma Observe_loadless (o : Options) (mxHost : Str) (throttled : Bool) : (Observe o mxHost throttled).Only Loadless := by
  refine ask_loadless fun seen => ?_
  rcases seen with _ | ⟨snapshot, paused, propose⟩
  · exact Prog.only_pure _
  · have proposes : (do
        if propose then proposeBand o (PaceKey mxHost) snapshot
        persist (PaceKey mxHost) snapshot : Act Unit).Only Loadless := by
      cases propose with
      | true => exact .bind ((proposeBand_tame _ _ _).mono tame_loadless) fun _ => persist_loadless _ _
      | false => exact persist_loadless _ _
    dsimp only
    split
    · exact ask_loadless fun _ => proposes
    · exact proposes

/-- A call looks up the state of its host first and loads nothing after that, or it loads
nothing at all. -/
lemma Call.prog_cases {R : Act Unit → Prop} (o : Options) (call : Call)
    (looks : ∀ domain (f : Nat → Act Unit), (∀ ref, (f ref).Only Loadless) →
      R (stateFor (PaceKey call.host) domain >>= f))
    (plain : ∀ p : Act Unit, p.Only Loadless → R p) : R (call.prog o) := by
  have ends {A : Type} {p : Act A} (only : p.Only Loadless) : (p >>= fun _ => pure ()).Only Loadless :=
    .bind only fun _ => Prog.only_pure _
  cases call with
  | acquire fuel mxHost domain =>
    have same : (Call.acquire fuel mxHost domain).prog o = stateFor (PaceKey mxHost) domain >>= _ :=
      bind_assoc (stateFor (PaceKey mxHost) domain) _ _
    rw [same]
    refine looks domain _ fun ref => ends (ask_loadless fun budget => ?_)
    rcases budget with _ | till | ⟨rate, burst⟩
    · exact Prog.only_pure _
    · exact Prog.only_pure _
    · exact (takeToken_tame _ _ _ _).mono tame_loadless
  | acquireSession fuel mxHost domain =>
    by_cases leases : o.leases = true
    · have taken : AcquireSession o fuel mxHost domain = stateFor (PaceKey mxHost) domain >>= _ :=
        if_neg (not_not.mpr leases)
      have same : (Call.acquireSession fuel mxHost domain).prog o = stateFor (PaceKey mxHost) domain >>= _ :=
        (congrArg Functor.discard taken).trans (bind_assoc (stateFor (PaceKey mxHost) domain) _ _)
      rw [same]
      refine looks domain _ fun ref => ends (ask_loadless fun room => ?_)
      rcases room with _ | till | limit
      · exact Prog.only_pure _
      · exact Prog.only_pure _
      · exact ask_loadless fun start => (takeLease_tame _ _ _ _ _ _).mono tame_loadless
    · have none : AcquireSession o fuel mxHost domain = pure _ := if_pos leases
      refine plain _ (ends ?_)
      rw [none]
      exact Prog.only_pure _
  | release key id => exact plain _ (ask_loadless fun _ => ask_loadless fun _ => Prog.only_pure _)
  | observe mxHost throttled => exact plain _ (Observe_loadless o mxHost throttled)
  | pauseKey mxHost till =>
    refine plain _ (ends (ask_loadless fun _ => ?_))
    split
    · exact ask_loadless fun _ => (Prog.only_ask _).mpr fun _ => trivial
    · exact (Prog.only_ask _).mpr fun _ => trivial
  | resumeKey mxHost => exact plain _ (ends (ask_loadless fun _ => (Prog.only_ask _).mpr fun _ => trivial))
  | promote mxHost => exact plain _ (ends ((Promote_tame mxHost).mono tame_loadless))

lemma prog_careful (o : Options) (call : Call) : (call.prog o).Follows Careful (fun _ _ => True) none :=
  call.prog_cases o (fun _ _ rest => stateFor_careful rest) fun _ only => loadless_careful only

end

namespace MXState
variable {st : MXState}

lemma InBand.rate_pos (inBand : st.InBand) : 0 < st.rate := inBand.ordered.minRate.trans_le inBand.low

lemma SamePoint.inBand {st' : MXState} (same : st.SamePoint st') (inBand : st.InBand) : st'.InBand := by
  obtain ⟨band, rate, conc, -⟩ := same
  obtain ⟨ordered, low, high, few, many⟩ := inBand
  constructor <;> simp only [band, rate, conc] <;> assumption

lemma touch_samePoint (st : MXState) (now : Time) : st.SamePoint (st.touch now) := ⟨rfl, rfl, rfl, rfl⟩

lemma throttle_rate_le (inBand : st.InBand) (now : Time) : (st.throttle now).1.rate ≤ st.rate := by
  simp only [throttle]
  split
  · apply max_le inBand.low
    have positive := inBand.rate_pos
    unfold backoffFactor
    linarith
  · exact le_refl _

lemma InBand.throttle (inBand : st.InBand) (roomy : st.band.Roomy) (now : Time) : (st.throttle now).1.InBand := by
  have slower := throttle_rate_le inBand now
  obtain ⟨ordered, low, high, few, many⟩ := inBand
  have start := ordered.minConc
  have exact := wrap64_of_fits (n := st.conc - 1) ⟨by omega, by omega⟩
  simp only [MXState.throttle] at slower ⊢
  split
  · rename_i above
    rw [if_pos above] at slower
    exact ⟨ordered, le_max_left _ _, slower.trans high, le_max_left _ _, by simp only [exact]; omega⟩
  · exact ⟨ordered, low, high, few, many⟩

lemma climb_rate_le (inBand : st.InBand) : st.rate ≤ st.climb.rate := by
  unfold climb
  split
  · apply le_min inBand.high
    have positive := inBand.rate_pos
    unfold climbFactor
    linarith
  · exact le_refl _

-- A climb is a real one: the rate was below the ceiling.
lemma climb_rate_lt_iff (inBand : st.InBand) : st.rate < st.climb.rate ↔ st.climbs = true := by
  unfold climb
  split
  · rename_i climbing
    refine ⟨fun _ => climbing, fun _ => ?_⟩
    obtain ⟨-, below⟩ : cleanBeforeClimb ≤ wrap64 (st.clean + 1) ∧ st.rate < st.band.maxRate := by
      simpa [climbs] using climbing
    apply lt_min below
    have positive := inBand.rate_pos
    unfold climbFactor
    linarith
  · rename_i still
    exact ⟨fun rises => absurd rises (lt_irrefl _), fun climbing => absurd climbing still⟩

lemma InBand.climb (inBand : st.InBand) (roomy : st.band.Roomy) : st.climb.InBand := by
  have faster := climb_rate_le inBand
  obtain ⟨ordered, low, high, few, many⟩ := inBand
  have start := ordered.minConc
  have exact := wrap64_of_fits (n := st.conc + 1) ⟨by omega, by omega⟩
  unfold MXState.climb at faster ⊢
  split
  · rename_i climbing
    rw [if_pos climbing] at faster
    exact ⟨ordered, low.trans faster, min_le_left _ _, by simp only [exact]; omega, by simp only [exact]; omega⟩
  · exact ⟨ordered, low, high, few, many⟩

lemma settle_samePoint (st : MXState) : st.SamePoint st.settle := by
  unfold settle
  split <;> exact ⟨rfl, rfl, rfl, rfl⟩

lemma weigh_samePoint (st : MXState) (promote : Promotion) : st.SamePoint (st.weigh promote).1 := by
  simp only [weigh]
  split
  · split <;> exact ⟨rfl, rfl, rfl, rfl⟩
  · exact ⟨rfl, rfl, rfl, rfl⟩

lemma SamePoint.trans {st' st'' : MXState} (first : st.SamePoint st') (second : st'.SamePoint st'') : st.SamePoint st'' :=
  ⟨second.band.trans first.band, second.rate.trans first.rate, second.conc.trans first.conc,
    second.clean.trans first.clean⟩

-- Apart from the climb, a clean answer leaves the point where it is.
lemma observe_clean (st : MXState) (promote : Promotion) (now : Time) :
    (st.touch now).climb.SamePoint (st.observe promote now false).1 :=
  (settle_samePoint _).trans (weigh_samePoint _ _)

lemma InBand.observe (inBand : st.InBand) (roomy : st.band.Roomy) (promote : Promotion) (now : Time)
    (throttled : Bool) : (st.observe promote now throttled).1.InBand := by
  have used := (touch_samePoint st now).inBand inBand
  cases throttled with
  | true => exact used.throttle roomy now
  | false => exact (observe_clean st promote now).inBand (used.climb roomy)

lemma observe_band (st : MXState) (promote : Promotion) (now : Time) (throttled : Bool) :
    (st.observe promote now throttled).1.band = st.band := by
  cases throttled with
  | true =>
    simp only [MXState.observe, MXState.throttle, if_true]
    split <;> rfl
  | false =>
    rw [(observe_clean st promote now).band]
    unfold MXState.climb
    split <;> rfl

end MXState

/-- The clean answers about an object since it was made, last climbed or was last throttled. -/
def cleanSince (ref : Nat) (history : List Observation) : Nat :=
  history.foldl (fun n x => if x.ref = ref then if x.throttled ∨ x.before < x.after then 0 else n + 1 else n) 0

lemma cleanSince_snoc (ref : Nat) (history : List Observation) (x : Observation) :
    cleanSince ref (history ++ [x]) =
      if x.ref = ref then if x.throttled ∨ x.before < x.after then 0 else cleanSince ref history + 1
      else cleanSince ref history := by
  simp only [cleanSince, List.foldl_append, List.foldl_cons, List.foldl_nil]

/-- An object in its band, with room, and a count of clean answers that is the true one. -/
structure Kept (history : List Observation) (ref : Nat) (st : MXState) : Prop where
  inBand : st.InBand
  roomy : st.band.Roomy
  clean : st.clean = wrap64 (cleanSince ref history)

-- The count after an answer that is not a throttle starts anew where the rate rises.
variable {history : List Observation} {ref : Nat} {st : MXState} {now : Time} {s : Node}

section
variable (kept : Kept history ref st)
include kept

lemma Kept.climb : st.climb.clean = wrap64 (if st.rate < st.climb.rate then 0 else cleanSince ref history + 1 : Nat) := by
  have rises := MXState.climb_rate_lt_iff kept.inBand
  by_cases climbing : st.climbs = true
  · rw [if_pos (rises.mpr climbing), MXState.climb, if_pos climbing]
    rfl
  · rw [if_neg fun higher => climbing (rises.mp higher), MXState.climb, if_neg climbing]
    simp only [kept.clean, wrap64_wrap64_add]
    rfl

lemma Kept.samePoint {st' : MXState} (same : st.SamePoint st') : Kept history ref st' :=
  ⟨same.inBand kept.inBand, by rw [same.band]; exact kept.roomy, same.clean.trans kept.clean⟩

lemma Kept.observe (promote : Promotion) (now : Time) (throttled : Bool) :
    Kept (history ++ [⟨ref, throttled, st.rate, (st.observe promote now throttled).1.rate⟩]) ref
      (st.observe promote now throttled).1 := by
  refine ⟨kept.inBand.observe kept.roomy promote now throttled, ?_, ?_⟩
  · rw [MXState.observe_band]
    exact kept.roomy
  · rw [cleanSince_snoc, if_pos rfl]
    cases throttled with
    | true =>
      rw [if_pos (.inl rfl)]
      simp only [MXState.observe, MXState.throttle, if_true]
      split <;> rfl
    | false =>
      have point := MXState.observe_clean st promote now
      have counted := (kept.samePoint (MXState.touch_samePoint st now)).climb
      rw [point.clean, point.rate, counted]
      simp only [Bool.false_eq_true, false_or]
      rfl

lemma Kept.rises {promote : Promotion} {throttled : Bool} (higher : st.rate < (st.observe promote now throttled).1.rate) :
    throttled = false ∧ 10 ≤ cleanSince ref history + 1 := by
  have used := kept.samePoint (MXState.touch_samePoint st now)
  cases throttled with
  | true => exact absurd higher (not_lt_of_ge (MXState.throttle_rate_le used.inBand now))
  | false =>
    refine ⟨rfl, ?_⟩
    rw [(MXState.observe_clean st promote now).rate] at higher
    have climbing := (MXState.climb_rate_lt_iff used.inBand).mp higher
    have tenth : cleanBeforeClimb ≤ wrap64 ((st.touch now).clean + 1) := by
      simp only [MXState.climbs, decide_eq_true_eq] at climbing
      exact climbing.1
    rw [used.clean, wrap64_wrap64_add] at tenth
    have counted := wrap64_le (n := (cleanSince ref history : Int) + 1) (by omega)
    unfold cleanBeforeClimb at tenth
    omega

end

lemma cleanSince_absent (absent : ∀ x ∈ history, x.ref ≠ ref) : cleanSince ref history = 0 := by
  induction history using List.reverseRecOn with
  | nil => rfl
  | append_singleton history x ih =>
    rw [cleanSince_snoc, if_neg (absent x (by simp))]
    exact ih fun y member => absent y (by simp [member])

/-- Every object is kept, every key has one, and nothing was noted of any other. -/
structure Sound (s : Node) : Prop where
  kept : ∀ ref st, s.memory.objects[ref]? = some st → Kept s.history ref st
  refs : ∀ key ref, s.memory.mx.lookup key = some ref → ref < s.memory.objects.length
  noted : ∀ x ∈ s.history, x.ref < s.memory.objects.length

lemma startRate_spec {band : Band} (ordered : band.Ordered) (saved : Option Number) :
    band.minRate ≤ startRate band saved ∧ startRate band saved ≤ band.maxRate := by
  unfold startRate
  split
  · split
    · rename_i below
      exact ⟨le_max_left _ _, max_le ordered.rates below.le⟩
    · exact ⟨ordered.rates, le_refl _⟩
  · exact ⟨ordered.rates, le_refl _⟩

lemma loaded_samePoint (band : Band) (start : ℚ) (now : Time) (pause : Option Time) :
    (loaded band start now none).SamePoint (loaded band start now pause) := by
  cases pause <;> exact ⟨rfl, rfl, rfl, rfl⟩

lemma loaded_kept {band : Band} {start : ℚ} (now : Time)
    (pause : Option Time) (ordered : band.Ordered) (roomy : band.Roomy)
    (within : band.minRate ≤ start ∧ start ≤ band.maxRate) (absent : ∀ x ∈ history, x.ref ≠ ref) :
    Kept history ref (loaded band start now pause) := by
  apply Kept.samePoint _ (loaded_samePoint band start now pause)
  refine ⟨⟨ordered, within.1, within.2, le_refl _, ordered.concs⟩, roomy, ?_⟩
  rw [cleanSince_absent absent]
  rfl

-- What is noted about another object changes nothing here.
lemma Kept.other (kept : Kept history ref st) {x : Observation} (other : x.ref ≠ ref) : Kept (history ++ [x]) ref st :=
  ⟨kept.inBand, kept.roomy, by rw [cleanSince_snoc, if_neg other]; exact kept.clean⟩

section
variable {o : Options} {sec : Section} (sound : Sound s) (fine : ∀ key band start, sec = .install key band start →
  band.Ordered ∧ band.Roomy ∧ band.minRate ≤ start ∧ start ≤ band.maxRate)
include sound fine

lemma touches_kept {objects : List MXState} {noted : List Observation}
    (touches : Touches o now s.memory sec objects noted) :
    ∀ ref st, objects[ref]? = some st → Kept (s.history ++ noted) ref st := by
  intro ref st found
  cases touches with
  | none =>
    rw [List.append_nil]
    exact sound.kept ref st found
  | @aside _ ref' st₀ st' here same =>
    rw [List.append_nil]
    by_cases equal : ref' = ref
    · subst equal
      obtain ⟨bound, -⟩ := List.getElem?_eq_some_iff.mp here
      rw [List.getElem?_set_self bound] at found
      cases found
      exact (sound.kept ref' st₀ here).samePoint same
    · rw [List.getElem?_set_ne equal] at found
      exact sound.kept ref st found
  | @made key band start pause absent =>
    rw [List.append_nil]
    obtain ⟨ordered, roomy, within⟩ := fine key band start rfl
    rcases Nat.lt_or_ge ref s.memory.objects.length with old | new
    · rw [List.getElem?_append_left old] at found
      exact sound.kept ref st found
    · have last : ref = s.memory.objects.length := by
        obtain ⟨bound, -⟩ := List.getElem?_eq_some_iff.mp found
        simp only [List.length_append, List.length_singleton] at bound
        omega
      subst last
      rw [List.getElem?_concat_length] at found
      cases found
      exact loaded_kept now pause ordered roomy within fun x member => Nat.ne_of_lt (sound.noted x member)
  | @observed key throttled ref' st₀ tracked here =>
    by_cases equal : ref' = ref
    · subst equal
      obtain ⟨bound, -⟩ := List.getElem?_eq_some_iff.mp here
      rw [List.getElem?_set_self bound] at found
      cases found
      exact (sound.kept ref' st₀ here).observe _ _ _
    · rw [List.getElem?_set_ne equal] at found
      exact (sound.kept ref st found).other equal

lemma Sound.enter {got : Got} : Sound (s.enter o now got sec) := by
  have touches : Touches o now s.memory sec (sec.run o now got s.memory).2.objects _ := run_touches sec
  obtain ⟨longer, about⟩ := touches_length touches
  refine ⟨touches_kept sound fine touches, fun key ref found => ?_, fun x member => ?_⟩
  · rcases run_lookup found with before | ⟨band, start, -, -, rfl, objects⟩
    · exact (sound.refs key ref before).trans_le longer
    · change _ < (sec.run o now got s.memory).2.objects.length
      rw [objects]
      simp
  · rcases List.mem_append.mp member with old | new
    · exact (sound.noted x old).trans_le longer
    · exact (about x new).trans_le longer

end

lemma Sound.drop (sound : Sound s) (keys : List Str) : Sound (s.drop keys) := by
  have same := forget_objects s.memory keys
  refine ⟨fun ref st found => ?_, fun key ref found => ?_, fun x member => ?_⟩
  · exact sound.kept ref st (same ▸ found)
  · exact lt_of_lt_of_eq (sound.refs key ref (forgetAll_lookup found)) (congrArg List.length same.symm)
  · exact lt_of_lt_of_eq (sound.noted x member) (congrArg List.length same.symm)

abbrev Process := Pool calls Unit Node

section
variable [Unicode] [Codec]

/-- Calls side by side on one process. Commands to the store may fail, others may write to
it, entries may be dropped at any time and the process may be started again. -/
def process (o : Options) : Rules calls Unit Node where
  world := Serves o true
  job p := ∃ call, p = Call.prog o call
  drift pool s' := ∃ keys store clock, s' = { pool.shared.drop keys with store, clock }

def Op.band : Op → Option Band
  | .locked (.install _ band _) => some band
  | _ => none

def BandRoomy (op : Op) : Prop := op.band.all (fun band => decide band.Roomy) = true

/-- The process in runs where every band that is loaded leaves room above its concurrency. -/
def modest (o : Options) : Rules calls Unit Node := { process o with may := fun _ _ e _ => BandRoomy e.op }

def fresh (store : Str → Option Str) : Process := { shared := { store } }

variable {o : Options} {s : Node} {st' : MXState}

omit [Unicode] in
lemma Sound.serves {s' : Node} {e : Event calls} {read : Option (Str × Got)} (sound : Sound s)
    (served : Serves o true s e s') (loads : Loads read e.op) (roomy : BandRoomy e.op) : Sound s' := by
  cases served with
  | now => exact ⟨sound.kept, sound.refs, sound.noted⟩
  | put | unheard _ => exact ⟨sound.kept, sound.refs, sound.noted⟩
  | got | unread _ | unwritten _ | other _ => exact sound
  | entered _ =>
    apply sound.enter
    rintro key band start rfl
    obtain ⟨ordered, got, -, rfl⟩ := loads
    exact ⟨ordered, of_decide_eq_true roomy, startRate_spec ordered _⟩

lemma Sound.step {pool pool' : Process}
    (orderly : pool.Orderly (fun read e => Loads read e.op) lastRead (fun _ _ => True) none)
    (sound : Sound pool.shared) (step : Pool.Step (modest o) pool pool') : Sound pool'.shared := by
  cases step with
  | spawn _ | finish | crash _ => exact sound
  | @act _ _ _ _ _ _ op next a served roomy => exact sound.serves served (orderly.allows a) roomy
  | drift moved =>
    obtain ⟨keys, store, clock, rfl⟩ := moved
    have dropped := sound.drop keys
    exact ⟨dropped.kept, dropped.refs, dropped.noted⟩

/-- A rise of the rate was earned: the last answer was clean, and at least the tenth since
the state was loaded, last climbed or was last throttled. -/
def Earned (s s' : Node) (key : Str) (before after : ℚ) : Prop :=
  ∃ ref, s.memory.mx.lookup key = some ref ∧ s'.history = s.history ++ [⟨ref, false, before, after⟩] ∧
    10 ≤ cleanSince ref s.history + 1

/-- The state was just loaded, by a call that had read the saved rate: at most the
ceiling, and at most that rate if it is a positive number, the floor apart. -/
def JustLoaded (pool : Process) (key : Str) (st : MXState) : Prop :=
  ∃ did rest got ref, ⟨did ++ [⟨.locked (.install key st.band st.rate), ref⟩], rest⟩ ∈ pool.running ∧
    did.foldl lastRead none = some (runtimeKey key "rate", got) ∧ st.rate ≤ st.band.maxRate ∧
    ∀ raw v, got = .ok (some raw) → Codec.parseFloat raw = some (.finite v) → 0 < v →
      st.rate ≤ max st.band.minRate v

omit [Unicode] in
lemma startRate_le_saved (band : Band) {raw : Str} {v : ℚ} (reads : Codec.parseFloat raw = some (.finite v))
    (positive : 0 < v) : startRate band (rateIn (.ok (some raw))) ≤ max band.minRate v := by
  have saved : rateIn (.ok (some raw)) = some (.finite v) := by
    simp [rateIn, readRate, reads, Number.nonpositive, positive]
  rw [saved]
  simp only [startRate]
  split
  · exact le_refl _
  · rename_i above
    exact (le_of_not_gt above).trans (le_max_right _ _)

omit [Unicode] [Codec] in
lemma loaded_point (band : Band) (start : ℚ) (now : Time) (pause : Option Time) :
    (loaded band start now pause).band = band ∧ (loaded band start now pause).rate = start := by
  cases pause <;> exact ⟨rfl, rfl⟩

omit [Unicode] [Codec] in
-- The object of a key that had one: its rate rises only by an answer about it.
lemma earned_by {now : Time} {sec : Section} {objects : List MXState}
    {noted : List Observation} {ref : Nat} {st : MXState} (sound : Sound s)
    (touches : Touches o now s.memory sec objects noted) (before : s.memory.objects[ref]? = some st)
    (after : objects[ref]? = some st') (higher : st.rate < st'.rate) :
    noted = [⟨ref, false, st.rate, st'.rate⟩] ∧ 10 ≤ cleanSince ref s.history + 1 := by
  obtain ⟨bound, -⟩ := List.getElem?_eq_some_iff.mp before
  cases touches with
  | none =>
    rw [before] at after
    cases after
    exact absurd higher (lt_irrefl _)
  | @aside _ ref' st₀ st₁ here same =>
    by_cases equal : ref' = ref
    · subst equal
      rw [List.getElem?_set_self bound] at after
      rw [before] at here
      cases after
      cases here
      exact absurd higher (same.rate ▸ lt_irrefl _)
    · rw [List.getElem?_set_ne equal, before] at after
      cases after
      exact absurd higher (lt_irrefl _)
  | made absent =>
    rw [List.getElem?_append_left bound, before] at after
    cases after
    exact absurd higher (lt_irrefl _)
  | @observed key throttled ref' st₀ tracked here =>
    by_cases equal : ref' = ref
    · subst equal
      rw [List.getElem?_set_self bound] at after
      rw [before] at here
      cases after
      cases here
      obtain ⟨rfl, tenth⟩ := (sound.kept ref' st before).rises higher
      exact ⟨rfl, tenth⟩
    · rw [List.getElem?_set_ne equal, before] at after
      cases after
      exact absurd higher (lt_irrefl _)

omit [Unicode] [Codec] in
lemma enter_state {now : Time} {got : Got} {sec : Section} {key : Str}
    (sound : Sound s) (found : (s.enter o now got sec).memory.state key = some st') :
    (∃ st, s.memory.state key = some st ∧
      (st.rate < st'.rate → Earned s (s.enter o now got sec) key st.rate st'.rate)) ∨
    s.memory.state key = none ∧ sec = .install key st'.band st'.rate := by
  obtain ⟨ref, tracked, here⟩ := state_eq_some.mp found
  rcases run_lookup tracked with before | ⟨band, start, rfl, absent, rfl, objects⟩
  · have bound := sound.refs key ref before
    have old := List.getElem?_eq_getElem bound
    refine .inl ⟨_, state_eq_some.mpr ⟨ref, before, old⟩, fun higher => ?_⟩
    obtain ⟨noted, tenth⟩ := earned_by sound (run_touches sec) old here higher
    exact ⟨ref, before, congrArg (s.history ++ ·) noted, tenth⟩
  · change (Section.run o now got s.memory _).2.objects[_]? = _ at here
    rw [objects, List.getElem?_concat_length] at here
    cases here
    obtain ⟨sameBand, sameRate⟩ := loaded_point band start now (savedPause got)
    refine .inr ⟨?_, by rw [sameBand, sameRate]⟩
    rw [Memory.state, absent]
    rfl

/-- What one step does to the state of a key. -/
lemma step_state {pool pool' : Process} {key : Str}
    (orderly : pool.Orderly (fun read e => Loads read e.op) lastRead (fun _ _ => True) none)
    (sound : Sound pool.shared) (step : Pool.Step (modest o) pool pool')
    (found : pool'.shared.memory.state key = some st') :
    (∃ st, pool.shared.memory.state key = some st ∧
      (st.rate < st'.rate → Earned pool.shared pool'.shared key st.rate st'.rate)) ∨
    pool.shared.memory.state key = none ∧ JustLoaded pool' key st' := by
  have unmoved {st : MXState} (same : pool.shared.memory.state key = some st) (rate : st.rate = st'.rate) :
      ∃ st, pool.shared.memory.state key = some st ∧
        (st.rate < st'.rate → Earned pool.shared pool'.shared key st.rate st'.rate) :=
    ⟨st, same, fun higher => absurd higher (rate ▸ lt_irrefl _)⟩
  cases step with
  | spawn _ | finish | crash _ => exact .inl (unmoved found rfl)
  | drift moved =>
    obtain ⟨keys, store, clock, rfl⟩ := moved
    exact .inl (unmoved (Memory.forgetAll_state found) rfl)
  | @act s s' before after gone did op next a served roomy =>
    have loads := orderly.allows a
    have served : Serves o true s ⟨op, a⟩ s' := served
    cases served with
    | now | put | unheard _ | got | unread _ | unwritten _ | other _ => exact .inl (unmoved found rfl)
    | @entered _ sec t got _ =>
      rcases enter_state sound found with kept | ⟨absent, rfl⟩
      · exact .inl kept
      · obtain ⟨ordered, got, read, start⟩ := loads
        refine .inr ⟨absent, did, _, got, _, List.mem_append_right _ List.mem_cons_self, read, ?_,
          fun raw v same reads positive => ?_⟩
        · rw [start]
          exact (startRate_spec ordered _).2
        · subst same
          rw [start]
          exact startRate_le_saved _ reads positive

/-- The working point stays in its band: in every state reached, and in every step the
rate rises only when that is earned and a key is loaded at no more than its saved rate. -/
theorem working_point_in_band {o : Options} {store : Str → Option Str} {pool : Process}
    (reached : Pool.Reaches (modest o) (fresh store) pool) :
    (∀ key st, pool.shared.memory.state key = some st → st.InBand) ∧
    ∀ pool', Pool.Step (modest o) pool pool' → ∀ key st', pool'.shared.memory.state key = some st' →
      (∀ st, pool.shared.memory.state key = some st → st.rate < st'.rate →
        Earned pool.shared pool'.shared key st.rate st'.rate) ∧
      (pool.shared.memory.state key = none → JustLoaded pool' key st') := by
  have jobs : ∀ p, (modest o).job p → p.Follows Careful (fun _ _ => True) none := by
    rintro _ ⟨call, rfl⟩
    exact prog_careful o call
  have start : Sound (fresh store).shared := by
    refine ⟨fun ref st found => ?_, fun key ref found => ?_, fun x member => ?_⟩
    · cases List.getElem?_nil.symm.trans found
    · cases (AList.lookup_empty key).symm.trans found
    · cases member
  obtain ⟨orderly, sound⟩ := reached.keeps (fun pool : Process => Sound pool.shared) jobs ⟨nofun, nofun⟩ start
    fun pool pool' orderly sound step => sound.step orderly step
  refine ⟨fun key st found => ?_, fun pool' step key st' found => ?_⟩
  · obtain ⟨ref, -, here⟩ := state_eq_some.mp found
    exact (sound.kept ref st here).inBand
  · rcases step_state orderly sound step found with ⟨st, before, earned⟩ | ⟨absent, loaded⟩
    · refine ⟨fun st₀ same higher => ?_, fun absent => ?_⟩
      · rw [before] at same
        cases same
        exact earned higher
      · rw [before] at absent
        cases absent
    · refine ⟨fun st₀ same => ?_, fun _ => loaded⟩
      rw [absent] at same
      cases same

end

section
variable [Unicode] [Codec]

lemma process_performs (o : Options) (cs : List Call) (s : Node) (gone : List (Trace calls × Option Unit)) :
    ∃ gone', Pool.Reaches (process o) ⟨s, [], gone⟩ ⟨performed o cs s, [], gone'⟩ := by
  induction cs generalizing s gone with
  | nil => exact ⟨gone, .refl⟩
  | cons call more ih =>
    have run := Prog.play_runs_within (P := fun _ => ∀ _ : Trace calls, True) (standing_serves o true)
      (call.prog o) s fun _ _ _ => trivial
    obtain ⟨gone', rest⟩ := ih ((call.prog o).play (standing o) s).2.2 _
    exact ⟨gone', (Pool.Reaches.returns (r := process o) ⟨call, rfl⟩ run).trans rest⟩

def roomy (o : Options) : List Call → Node → Bool
  | [], _ => true
  | call :: more, s =>
    ((call.prog o).play (standing o) s).1.all (fun e => e.op.band.all fun band => decide band.Roomy) &&
      roomy o more ((call.prog o).play (standing o) s).2.2

lemma modest_performs (o : Options) (cs : List Call) (s : Node) (gone : List (Trace calls × Option Unit))
    (room : roomy o cs s = true) : ∃ gone', Pool.Reaches (modest o) ⟨s, [], gone⟩ ⟨performed o cs s, [], gone'⟩ := by
  induction cs generalizing s gone with
  | nil => exact ⟨gone, .refl⟩
  | cons call more ih =>
    obtain ⟨first, rest⟩ := Bool.and_eq_true_iff.mp room
    have run := Prog.play_runs_within (P := fun e : Event calls => ∀ _ : Trace calls, BandRoomy e.op)
      (standing_serves o true) (call.prog o) s fun e member _ => List.all_eq_true.mp first e member
    obtain ⟨gone', reached⟩ := ih _ _ rest
    exact ⟨gone', (Pool.Reaches.returns (r := modest o) ⟨call, rfl⟩ run).trans reached⟩

end

-- The key is loaded, throttled once, and then answers ten times without a throttle.
def tenClean : List Call :=
  .acquire 1 (lit "mx.test") [] :: .observe (lit "mx.test") true :: List.replicate 10 (.observe (lit "mx.test") false)

/-- With the default band the rate is halved and then a tenth of it is earned back. -/
theorem tenClean_in_band : ∃ pool st, Pool.Reaches (modest {}) (fresh fun _ => none) pool ∧
    pool.shared.memory.state (lit "mx.test") = some st ∧ st.rate = 11 / 40 ∧ st.InBand := by
  obtain ⟨gone, reached⟩ := modest_performs {} tenClean { store := fun _ => none } [] (by decide +kernel)
  have ends : ((performed {} tenClean { store := fun _ => none }).memory.state (lit "mx.test")).any
      (fun st => st.rate = 11 / 40) = true := by decide +kernel
  obtain ⟨st, found, rate⟩ := (Option.any_eq_true _ _).mp ends
  exact ⟨_, st, reached, found, of_decide_eq_true rate, (working_point_in_band reached).1 _ st found⟩

def boundless : Str → Option Str := fun key =>
  if key = limitsKey (lit "mx.test") then some (lit "\x7b\"min_concurrency\":9223372036854775807\x7d") else none

/-- The climb runs over: the concurrency is far below its band. -/
theorem climb_overflows : ∃ pool st, Pool.Reaches (process {}) (fresh boundless) pool ∧
    pool.shared.memory.state (lit "mx.test") = some st ∧ st.band.minConc = 2 ^ 63 - 1 ∧ st.conc = -2 ^ 63 := by
  obtain ⟨gone, reached⟩ := process_performs {} tenClean { store := boundless } []
  have ends : ((performed {} tenClean { store := boundless }).memory.state (lit "mx.test")).any
      (fun st => st.band.minConc = 2 ^ 63 - 1 ∧ st.conc = -2 ^ 63) = true := by decide +kernel
  obtain ⟨st, found, point⟩ := (Option.any_eq_true _ _).mp ends
  exact ⟨_, st, reached, found, of_decide_eq_true point⟩

end EmailVerifier.Pacer
