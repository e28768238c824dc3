import EmailVerifier.Pacer.Standing

/-! Whether an eviction goes unnoticed.

Calls are made one after the other, each in surroundings that answer it in the same way
however often it has to load its key, and at any point entries may be dropped. A book that
never drops anything foretells what every call asks of the bucket and of the leases, and
which calls are refused. A run agrees with the book as long as only spent entries are
dropped and no answer is lost.
-/

set_option autoImplicit false

namespace EmailVerifier.Pacer
open Text Data Semantics

/-- The surroundings of one call. Look-ups and loads are not counted, so that a call that
loads its key again finds everything else as it was. -/
structure Outside where
  time : Nat → Time
  answer : Nat → (op : Op) → op.Answer
  -- When a look-up or a load is.
  aside : Section → Time

inductive Request where
  | take (key : Str) (rate : ℚ)
  | lease (key : Str) (limit : Int)
  deriving DecidableEq

def Op.requests : Op → List Request
  | .take key rate _ => [.take key rate]
  | .lease key limit _ => [.lease key limit]
  | _ => []

/-- A call in progress: how many things it has met with, and what it has asked for. -/
structure Scene where
  node : Node
  count : Nat := 0
  asked : List Request := []

def Section.looksUp : Section → Bool
  | .find _ | .install _ _ _ => true
  | _ => false

namespace Scene

def drop (x : Scene) (keys : List Str) : Scene := { x with node := x.node.drop keys }

def ask (x : Scene) (op : Op) : Scene := { x with count := x.count + 1, asked := x.asked ++ op.requests }

end Scene

def Outside.clock (out : Outside) (count : Nat) (sec : Section) : Time :=
  if sec.looksUp then out.aside sec else out.time count

def Outside.player (o : Options) (out : Outside) : Player calls Scene := fun x op =>
  match op with
  | .now => (out.time x.count, { x with node := { x.node with clock := out.time x.count }, count := x.count + 1 })
  | .get key => (.ok (x.node.store key), x)
  | .set key val => (.ok (), { x with node := x.node.put key val })
  | .locked sec =>
    ((sec.run o (out.clock x.count sec) (.ok (x.node.store sec.reads)) x.node.memory).1,
      { x with
        node := x.node.enter o (out.clock x.count sec) (.ok (x.node.store sec.reads)) sec
        count := if sec.looksUp then x.count else x.count + 1 })
  | .take key rate burst => (out.answer x.count (.take key rate burst), x.ask (.take key rate burst))
  | .lease key limit ttl => (out.answer x.count (.lease key limit ttl), x.ask (.lease key limit ttl))
  | .release key id => (out.answer x.count (.release key id), x.ask (.release key id))
  | .after wait => (out.answer x.count (.after wait), x.ask (.after wait))
  | .pause key => (out.answer x.count (.pause key), x.ask (.pause key))
  | .leaseWait outcome => (out.answer x.count (.leaseWait outcome), x.ask (.leaseWait outcome))

/-- Before every operation some entries may be dropped. The clock never goes back, each key
has one band, and the rest is for a condition on the node before the drop and after it, the
operation, and the node after that. -/
def evicting (o : Options) (bands : Str → Band) (fair : Node → Node → Op → Node → Prop) (out : Outside) :
    World calls Scene := fun x e x' => ∃ keys,
  out.player o (x.drop keys) e.op = (e.answer, x') ∧ x.node.clock.nanos ≤ x'.node.clock.nanos ∧
    (∀ key band start, e.op = .locked (.install key band start) → band = bands key) ∧
    fair x.node (x.drop keys).node e.op x'.node

def Failure.isPaused : Failure → Bool
  | .paused _ _ => true
  | .text _ => false

def pausedIn {A : Type} : Except Failure A → Bool
  | .error f => f.isPaused
  | .ok _ => false

def Call.refused [Unicode] [Codec] (o : Options) : Call → Act Bool
  | .acquire fuel mxHost domain => do return (← Acquire fuel mxHost domain).any pausedIn
  | .acquireSession fuel mxHost domain => do
    return (← AcquireSession o fuel mxHost domain).any fun found => pausedIn found.1
  | call => do
    call.prog o
    return false

def Call.loads [Unicode] (o : Options) : Call → List Str
  | .acquire _ mxHost _ => [PaceKey mxHost]
  | .acquireSession _ mxHost _ => if o.leases then [PaceKey mxHost] else []
  | _ => []

def Call.paces : Call → Bool
  | .acquire _ _ _ | .acquireSession _ _ _ | .release _ _ | .observe _ _ => true
  | _ => false

/-- Calls made one after the other: what each asked for, and whether it was refused. The
surroundings know which keys were loaded before. -/
inductive Sequence [Unicode] [Codec] (o : Options) (W : List Str → Outside → World calls Scene) :
    List Str → List (Call × Outside) → Node → List (List Request × Bool) → Prop where
  | none {loaded : List Str} {s : Node} : Sequence o W loaded [] s []
  | next {loaded : List Str} {call : Call} {out : Outside} {more : List (Call × Outside)} {s : Node} {x : Scene}
      {tr : Trace calls} {paused : Bool} {logs : List (List Request × Bool)} :
      Runs (W loaded out) (call.refused o) { node := s } tr (.done paused) x →
      Sequence o W (call.loads o ++ loaded) more x.node logs →
      Sequence o W loaded ((call, out) :: more) s ((x.asked, paused) :: logs)

def Sheds (s s' : Node) : Prop :=
  ∀ key st, s.memory.state key = some st → s'.memory.state key = none → st.Spent s'.clock

/-- The condition: only spent entries are dropped, by hand or by a load, and an answer about
a key that was loaded before finds its entry. -/
def Sparing (loaded : List Str) (s kept : Node) (op : Op) (s' : Node) : Prop :=
  Sheds s kept ∧ Sheds kept s' ∧
    ∀ key throttled, op = .locked (.observe key throttled) → key ∈ loaded → kept.memory.state key ≠ none

section
variable [Unicode] [Codec]

/-- What a call that gets past the pause asks for, and whether it is refused then. The node
makes no difference. -/
def Outside.goesOn (o : Options) (out : Outside) (p : Act Bool) : List Request × Bool :=
  let played := p.play (out.player o) { node := {}, count := 1 }
  (played.2.2.asked, played.2.1)

def Call.foretold (o : Options) (out : Outside) (book : Str → MXState) : Call → List Request × Bool
  | .acquire fuel mxHost _ =>
    let st := book (PaceKey mxHost)
    if (out.time 0).Before st.pausedUntil then ([], true)
    else out.goesOn o do return (← takeToken (PaceKey mxHost) st.rate st.band.burst fuel).any pausedIn
  | .acquireSession fuel mxHost _ =>
    let st := book (PaceKey mxHost)
    if o.leases = false then ([], false)
    else if (out.time 0).Before st.pausedUntil then ([], true)
    else out.goesOn o do
      let start ← now
      return (← takeLease o (PaceKey mxHost) (max 1 st.conc) start false fuel).any fun found => pausedIn found.1
  | _ => ([], false)

def Call.enters (o : Options) (out : Outside) (loaded : List Str) (book : Str → MXState) : Call → Str → MXState
  | .observe mxHost throttled =>
    if PaceKey mxHost ∈ loaded then
      Function.update book (PaceKey mxHost) ((book (PaceKey mxHost)).observe o.promote (out.time 0) throttled).1
    else book
  | _ => book

def foretoldAll (o : Options) : List Str → List (Call × Outside) → (Str → MXState) → List (List Request × Bool)
  | _, [], _ => []
  | loaded, (call, out) :: more, book =>
    call.foretold o out book :: foretoldAll o (call.loads o ++ loaded) more (call.enters o out loaded book)

end

section
variable [Codec]

/-- With what is still to be written, every entry is saved, and every key stands where the
book says. -/
structure Tracks (bands : Str → Band) (book : Str → MXState) (known : List Str) (todo : List (Str × Str)) (s : Node) :
    Prop where
  placed : s.memory.Placed
  late : Time.epoch * second ≤ s.clock.nanos
  entry : ∀ key st, s.memory.state key = some st →
    key ∈ known ∧ (bands key).Ordered ∧ st.InRates (bands key) ∧ Saved (bands key) key (s.flush todo) st
  book : ∀ key, (book key).Matches s.clock ((s.flush todo).standing bands key)

omit [Codec] in
lemma flush_memory (s : Node) (todo : List (Str × Str)) : (s.flush todo).memory = s.memory := by
  induction todo generalizing s with
  | nil => rfl
  | cons w more ih => exact ih _

variable {bands : Str → Band} {book : Str → MXState} {known : List Str} {todo todo' : List (Str × Str)} {s s' : Node}

variable {key : Str} {st : MXState} {t : Time}

lemma standing_tracked (found : s.memory.state key = some st) : (s.flush todo).standing bands key = st := by
  rw [Node.standing, flush_memory, found, Option.getD_some]

lemma standing_untracked (absent : s.memory.state key = none) :
    (s.flush todo).standing bands key = (s.flush todo).reload (bands key) key := by
  rw [Node.standing, flush_memory, absent, Option.getD_none]

omit [Codec] in
lemma loaded_at (band : Band) (start : ℚ) (t t' : Time) (pause : Option Time) :
    (loaded band start t pause).SamePoint (loaded band start t' pause) ∧
      (loaded band start t' pause).pausedUntil = (loaded band start t pause).pausedUntil := by
  cases pause <;> exact ⟨⟨rfl, rfl, rfl, rfl⟩, rfl⟩

def Comes (bands : Str → Band) (known : List Str) (s : Node) (key : Str) (st' : MXState) : Prop :=
  (∃ st, s.memory.state key = some st ∧ st.SamePoint st' ∧ st'.pausedUntil = st.pausedUntil) ∨
    s.memory.state key = none ∧ key ∈ known ∧ (bands key).Ordered ∧
      ∃ t, st' = loaded (bands key) (startRate (bands key) (rateIn (.ok (s.store (rateField key))))) t
        (savedPause (.ok (s.store (pauseField key))))

lemma Comes.matches {st' : MXState} (comes : Comes bands known (s.flush todo) key st') (now : Time) :
    ((s.flush todo).standing bands key).Matches now st' := by
  rcases comes with ⟨st, found, same, pause⟩ | ⟨absent, -, -, t, rfl⟩
  · rw [flush_memory] at found
    rw [standing_tracked found]
    exact same.matches pause now
  · rw [flush_memory] at absent
    rw [standing_untracked absent]
    obtain ⟨same, pause⟩ := loaded_at (bands key) (startRate (bands key)
      (rateIn (.ok ((s.flush todo).store (rateField key))))) Time.zero t
      (savedPause (.ok ((s.flush todo).store (pauseField key))))
    exact same.matches pause now

lemma Tracks.onward (tracks : Tracks bands book known todo s) (placed : s'.memory.Placed)
    (later : s.clock.nanos ≤ s'.clock.nanos)
    (rates : ∀ key, (s'.flush todo').store (rateField key) = (s.flush todo).store (rateField key))
    (pauses : ∀ key, (s'.flush todo').store (pauseField key) = (s.flush todo).store (pauseField key))
    (entries : ∀ key st', s'.memory.state key = some st' → Comes bands known (s.flush todo) key st')
    (sheds : Sheds s s') : Tracks bands book known todo' s' := by
  have saved (key : Str) : (s'.flush todo').saved key = (s.flush todo).saved key := by
    rw [Node.saved, Node.saved, pauses]
  refine ⟨placed, tracks.late.trans later, fun key st' found => ?_, fun key => ?_⟩
  · rcases entries key st' found with ⟨st, old, same, pause⟩ | ⟨-, member, ordered, t, rfl⟩
    · rw [flush_memory] at old
      obtain ⟨member, ordered, inRates, rate, till⟩ := tracks.entry key st old
      refine ⟨member, ordered, ⟨same.band.trans inRates.fixed, ?_, ?_⟩, ?_, ?_⟩
      · rw [same.rate]
        exact inRates.low
      · rw [same.rate]
        exact inRates.high
      · rw [rates, same.rate]
        exact rate
      · rw [saved, pause]
        exact till
    · obtain ⟨fixed, rate⟩ := loaded_point (bands key) (startRate (bands key)
        (rateIn (.ok ((s.flush todo).store (rateField key))))) t (savedPause (.ok ((s.flush todo).store (pauseField key))))
      have within := startRate_spec ordered (rateIn (.ok ((s.flush todo).store (rateField key))))
      refine ⟨member, ordered, ⟨fixed, ?_, ?_⟩, ?_, ?_⟩
      · rw [rate]
        exact within.1
      · rw [rate]
        exact within.2
      · rw [rates, rate]
      · rw [saved, loaded_pausedUntil]
        rfl
  · have stood := (tracks.book key).later later
    cases found : s'.memory.state key with
    | some st' =>
      rw [standing_tracked found]
      exact stood.trans ((entries key st' found).matches _)
    | none =>
      have same : (s'.flush todo').reload (bands key) key = (s.flush todo).reload (bands key) key := by
        rw [Node.reload, Node.reload, rates, pauses]
      rw [standing_untracked found, same]
      cases old : s.memory.state key with
      | none => rwa [standing_untracked old] at stood
      | some st =>
        -- The entry is shed, and the store stands in for it.
        rw [standing_tracked old] at stood
        obtain ⟨-, -, inRates, saved⟩ := tracks.entry key st old
        exact stood.trans ((sheds key st old found).reload inRates.fixed saved)

lemma Tracks.stay (tracks : Tracks bands book known todo s) (placed : s'.memory.Placed)
    (later : s.clock.nanos ≤ s'.clock.nanos) (store : s'.store = s.store)
    (entries : ∀ key st', s'.memory.state key = some st' → Comes bands known (s.flush todo) key st') (sheds : Sheds s s') :
    Tracks bands book known todo s' := by
  have same (field : Str) : (s'.flush todo).store field = (s.flush todo).store field := flush_store (by rw [store]) todo
  exact tracks.onward placed later (fun _ => same _) (fun _ => same _) entries sheds

lemma Comes.still (found : s.memory.state key = some st) : Comes bands known (s.flush todo) key st :=
  .inl ⟨st, by rw [flush_memory, found], ⟨rfl, rfl, rfl, rfl⟩, rfl⟩

lemma Tracks.drop (tracks : Tracks bands book known todo s) {keys : List Str} (sheds : Sheds s (s.drop keys)) :
    Tracks bands book known todo (s.drop keys) :=
  tracks.stay (tracks.placed.forgetAll keys) (le_refl _) rfl (fun _ _ found => .still (Memory.forgetAll_state found)) sheds

lemma Tracks.calm {o : Options} (tracks : Tracks bands book known [] s) (sec : Section)
    (calm : sec.calm = true) (later : s.clock.nanos ≤ t.nanos)
    (sheds : Sheds s (s.enter o t (.ok (s.store sec.reads)) sec))
    (loads : ∀ key band start, sec = .install key band start → band = bands key ∧ key ∈ known ∧ band.Ordered ∧
      start = startRate band (rateIn (.ok (s.store (rateField key))))) :
    Tracks bands book known [] (s.enter o t (.ok (s.store sec.reads)) sec) := by
  refine tracks.stay (tracks.placed.run ..) later rfl (fun key st' found => ?_) sheds
  rcases calm_state calm tracks.placed found with old | ⟨band, start, rfl, absent, rfl⟩
  · exact .inl old
  · obtain ⟨rfl, member, ordered, rfl⟩ := loads key band start rfl
    exact .inr ⟨state_none absent, member, ordered, t, rfl⟩

omit [Codec] in
lemma Sheds.same (same : s'.memory = s.memory) : Sheds s s' := by
  intro key st found gone
  rw [same, found] at gone
  cases gone

lemma Tracks.clocked (tracks : Tracks bands book known todo s) (later : s.clock.nanos ≤ t.nanos) :
    Tracks bands book known todo { s with clock := t } :=
  tracks.stay tracks.placed later rfl (fun _ _ found => .still found) (.same rfl)

lemma Tracks.put {field val : Str} (tracks : Tracks bands book known todo s)
    (rates : ∀ key, ((s.put field val).flush todo').store (rateField key) = (s.flush todo).store (rateField key))
    (pauses : ∀ key, ((s.put field val).flush todo').store (pauseField key) = (s.flush todo).store (pauseField key)) :
    Tracks bands book known todo' (s.put field val) :=
  tracks.onward tracks.placed (le_refl _) rates pauses (fun _ _ found => .still found) (.same rfl)

/-- An answer is taken into account, in the entry and in the book. -/
lemma Tracks.observe (faithful : Codec.Faithful) {o : Options}
    {got : Got} {throttled : Bool} (tracks : Tracks bands book known [] s)
    (later : s.clock.nanos ≤ t.nanos) (found : s.memory.state key = some st) :
    Tracks bands (Function.update book key ((book key).observe o.promote t throttled).1) known
      (writes key (st.observe o.promote t throttled).1) (s.enter o t got (.observe key throttled)) := by
  obtain ⟨member, ordered, inRates, saved⟩ := tracks.entry key st found
  have entry : (s.enter o t got (.observe key throttled)).memory.state key = some (st.observe o.promote t throttled).1 := by
    rw [← Option.map_some (f := fun st => (MXState.observe st o.promote t throttled).1), ← found]
    exact (observe_entry o t got tracks.placed key throttled).2
  have others {key' : Str} (other : key' ≠ key) :
      (s.enter o t got (.observe key throttled)).memory.state key' = s.memory.state key' :=
    observe_others o t got tracks.placed other throttled
  -- The fields of other keys stay as they are.
  have field {key' : Str} {name : String} (other : key' ≠ key) (plain : 58 ∉ lit name) :
      ((s.enter o t got (.observe key throttled)).flush (writes key (st.observe o.promote t throttled).1)).store
        (runtimeKey key' name) = s.store (runtimeKey key' name) :=
    flush_other (writes_elsewhere other plain) _
  refine ⟨tracks.placed.run .., tracks.late.trans later, fun key' st' found' => ?_, fun key' => ?_⟩
  · by_cases same : key' = key
    · subst same
      cases entry.symm.trans found'
      have rated := inRates.observe ordered o.promote t throttled
      refine ⟨member, ordered, rated, ?_, ?_⟩
      · rw [rate_writes]
        exact startRate_exact faithful ordered rated
      · rw [saved_writes]
        split
        · rename_i zero
          rcases observe_pausedUntil st o.promote t throttled with kept | ⟨-, -, floored⟩
          · rw [kept]
            exact saved.pause
          · have real : (t.Add st.band.pauseFor).IsZero = false :=
              add_not_zero (tracks.late.trans later) (wrap64_fits _)
            rw [floored, real] at zero
            cases zero
        · rfl
    · rw [others same] at found'
      obtain ⟨member', ordered', inRates', rate', pause'⟩ := tracks.entry key' st' found'
      refine ⟨member', ordered', inRates', ?_, ?_⟩
      · rw [field same (by decide)]
        exact rate'
      · rw [Node.saved, field same (by decide)]
        exact pause'
  · have stood := (tracks.book key').later later
    by_cases same : key' = key
    · subst same
      rw [standing_tracked entry, Function.update_self]
      have here : (s.flush []).standing bands key' = st := standing_tracked found
      rw [here] at stood
      exact stood.observe o.promote t throttled
    · rw [Function.update_of_ne same]
      have here : ((s.enter o t got (.observe key throttled)).flush (writes key (st.observe o.promote t throttled).1)).standing
          bands key' = (s.flush []).standing bands key' := by
        rw [Node.standing, Node.standing, flush_memory, flush_memory, others same, Node.reload, Node.reload,
          field same (by decide), field same (by decide)]
        rfl
      rw [here]
      exact stood

end

abbrev sparing (o : Options) (bands : Str → Band) (loaded : List Str) (out : Outside) : World calls Scene :=
  evicting o bands (Sparing loaded) out

section
variable {o : Options} {out : Outside}

variable (o out) in
lemma outward_alike {op : Op} (outward : op.outward) {x y : Scene} (count : x.count = y.count) (asked : x.asked = y.asked) :
    (out.player o x op).1 = (out.player o y op).1 ∧ (out.player o x op).2.count = (out.player o y op).2.count ∧
      (out.player o x op).2.asked = (out.player o y op).2.asked := by
  obtain ⟨node, n, asks⟩ := x
  cases count
  cases asked
  cases op with
  | locked sec => cases sec <;> first | exact ⟨rfl, rfl, rfl⟩ | exact outward.elim
  | get key | set key val => exact outward.elim
  | _ => exact ⟨rfl, rfl, rfl⟩

variable [Codec] {bands : Str → Band} {loaded known : List Str} {book : Str → MXState} {x x' : Scene} {A : Type}

lemma Tracks.outward {op : Op} {a : op.Answer} (tracks : Tracks bands book known [] x.node) (outward : op.outward)
    (event : sparing o bands loaded out x ⟨op, a⟩ x') : Tracks bands book known [] x'.node := by
  obtain ⟨keys, played, later, -, sheds, sheds', -⟩ := event
  have kept := tracks.drop sheds
  cases op with
  | now =>
    cases played
    exact kept.clocked later
  | locked sec =>
    cases played
    cases sec <;> first
      | exact outward.elim
      | exact kept.calm _ rfl later sheds' (by rintro _ _ _ ⟨⟩)
  | get key | set key val => exact outward.elim
  | _ =>
    cases played
    exact kept

lemma outward_ensures {p : Act A} (only : p.Only Op.outward) (tracks : Tracks bands book known [] x.node) {y : Scene}
    (count : x.count = y.count) (asked : x.asked = y.asked) :
    p.Ensures (sparing o bands loaded out) (fun a x' => Tracks bands book known [] x'.node ∧
      a = (p.play (out.player o) y).2.1 ∧ x'.asked = (p.play (out.player o) y).2.2.asked) x := by
  induction p generalizing x y with
  | done a => exact ⟨tracks, rfl, asked⟩
  | perform op next ih =>
    intro a x' event
    have tracks' := tracks.outward only.1 event
    obtain ⟨keys, played, -⟩ := event
    obtain ⟨answer, counts, asks⟩ := outward_alike o out only.1 (x := x.drop keys) (y := y) count asked
    obtain rfl : (out.player o (x.drop keys) op).1 = a := congrArg Prod.fst played
    obtain rfl : (out.player o (x.drop keys) op).2 = x' := congrArg Prod.snd played
    rw [answer]
    exact ih _ (only.2 _) tracks' counts asks

variable [Unicode]

def Refers (book : Str → MXState) (key : Str) (ref : Nat) (s : Node) : Prop :=
  ∃ st, s.memory.objects[ref]? = some st ∧ (book key).Matches s.clock st

variable {s : Node} {key : Str} {ref : Nat} {st : MXState}

omit [Unicode] in
lemma Tracks.refers (tracks : Tracks bands book known [] s)
    (tracked : s.memory.mx.lookup key = some ref) : Refers book key ref s := by
  obtain ⟨st, here, found⟩ := placed_state tracks.placed tracked
  have stood := tracks.book key
  have same : (s.flush []).standing bands key = st := standing_tracked found
  rw [same] at stood
  exact ⟨st, here, stood⟩

lemma stateFor_ensures {domain : Str} (tracks : Tracks bands book known [] x.node) (member : key ∈ known) :
    (stateFor key domain).Ensures (sparing o bands loaded out) (fun ref x' => Tracks bands book known [] x'.node ∧
      x'.count = x.count ∧ x'.asked = x.asked ∧ Refers book key ref x'.node) x := by
  rintro found x₁ ⟨keys, played, later, -, sheds, sheds', -⟩
  have answered : (Section.run o (out.aside (.find key)) (.ok ((x.node.drop keys).store (Section.find key).reads))
      (x.node.drop keys).memory (.find key)).1 = found := congrArg Prod.fst played
  obtain rfl : (out.player o (x.drop keys) (.locked (.find key))).2 = x₁ := congrArg Prod.snd played
  have tracks := (tracks.drop sheds).calm (.find key) rfl later sheds' (by rintro _ _ _ ⟨⟩)
  cases found with
  | some ref => exact ⟨tracks, rfl, rfl, tracks.refers (find_tracks answered)⟩
  | none =>
    rintro limits x₂ ⟨keys₂, played₂, -, -, sheds₂, -⟩
    cases played₂
    have tracks := tracks.drop sheds₂
    rintro saved x₃ ⟨keys₃, played₃, -, -, sheds₃, -⟩
    cases played₃
    have tracks := tracks.drop sheds₃
    rintro ref x₄ ⟨keys₄, played₄, later₄, fixed, sheds₄, sheds₄', -⟩
    have tracks := tracks.drop sheds₄
    have band := fixed _ _ _ rfl
    cases played₄
    have tracks := tracks.calm _ rfl later₄ sheds₄' (by
      rintro _ _ _ ⟨⟩
      exact ⟨band, member, (bandIn_normal key domain _).toOrdered, rfl⟩)
    exact ⟨tracks, rfl, rfl, tracks.refers (install_tracks ..)⟩

omit [Unicode] [Codec] in
lemma Refers.drop (refers : Refers book key ref s) (keys : List Str) : Refers book key ref (s.drop keys) := by
  obtain ⟨st, here, stood⟩ := refers
  refine ⟨st, ?_, stood⟩
  rw [Node.drop, forget_objects]
  exact here

omit [Unicode] [Codec] in
lemma Refers.unlessPaused {t : Time} {read : MXState → A}
    (refers : Refers book key ref s) (later : s.clock.nanos ≤ t.nanos)
    (reads : ∀ st, (book key).Matches s.clock st → read st = read (book key)) :
    (t.Before (book key).pausedUntil = true ∧ ∃ till, s.memory.unlessPaused ref t read = some (.error till)) ∨
      t.Before (book key).pausedUntil = false ∧ s.memory.unlessPaused ref t read = some (.ok (read (book key))) := by
  obtain ⟨st, here, stood⟩ := refers
  unfold Memory.unlessPaused
  rw [here, Option.map_some, stood.before later]
  cases t.Before (book key).pausedUntil with
  | true => exact .inl ⟨rfl, _, rfl⟩
  | false =>
    right
    rw [← reads st stood]
    exact ⟨rfl, rfl⟩

/-- The outcome is the one foretold, and the node agrees with the book again. -/
def Foretold (o : Options) (out : Outside) (bands : Str → Band) (book : Str → MXState) (loaded : List Str) (call : Call)
    (paused : Bool) (x : Scene) : Prop :=
  Tracks bands (call.enters o out loaded book) (call.loads o ++ loaded) [] x.node ∧
    (x.asked, paused) = call.foretold o out book

omit [Unicode] in
lemma Tracks.mono {todo : List (Str × Str)} (tracks : Tracks bands book loaded todo s) (more : loaded ⊆ known) :
    Tracks bands book known todo s :=
  ⟨tracks.placed, tracks.late, fun key st found => ⟨more (tracks.entry key st found).1, (tracks.entry key st found).2⟩,
    tracks.book⟩

lemma goesOn_ensures {call : Call} {p : Act Bool} {node : Node} (only : p.Only Op.outward)
    (tracks : Tracks bands (call.enters o out loaded book) (call.loads o ++ loaded) [] node)
    (told : call.foretold o out book = out.goesOn o p) :
    p.Ensures (sparing o bands loaded out) (Foretold o out bands book loaded call) ⟨node, 1, []⟩ := by
  refine (outward_ensures (x := ⟨node, 1, []⟩) (y := { node := {}, count := 1 }) only tracks rfl rfl).mono ?_
  rintro paused x ⟨tracks, rfl, asked⟩
  refine ⟨tracks, ?_⟩
  rw [told, asked]
  rfl

lemma acquire_ensures (tracks : Tracks bands book loaded [] s) (fuel : Nat) (mxHost domain : Str) :
    ((Call.acquire fuel mxHost domain).refused o).Ensures (sparing o bands loaded out)
      (Foretold o out bands book loaded (.acquire fuel mxHost domain)) { node := s } := by
  have start : Tracks bands book (PaceKey mxHost :: loaded) [] s := tracks.mono (List.subset_cons_self _ _)
  simp only [Call.refused, Acquire, bind_assoc]
  refine (stateFor_ensures (x := { node := s }) start List.mem_cons_self).andThen ?_
  rintro ref ⟨node, n, asks⟩ ⟨tracks, count, asked, refers⟩
  cases count
  cases asked
  rintro budget x ⟨keys, played, later, -, sheds, sheds', -⟩
  have answered : (node.drop keys).memory.unlessPaused ref (out.time 0) (fun st => (st.rate, st.band.burst)) = budget :=
    congrArg Prod.fst played
  obtain rfl : (out.player o (Scene.drop ⟨node, 0, []⟩ keys) (.locked (.budget ref))).2 = x := congrArg Prod.snd played
  have tracks := (tracks.drop sheds).calm (.budget ref) rfl later sheds' (by rintro _ _ _ ⟨⟩)
  have reads (st : MXState) (stood : (book (PaceKey mxHost)).Matches node.clock st) :
      (st.rate, st.band.burst) = ((book (PaceKey mxHost)).rate, (book (PaceKey mxHost)).band.burst) := by
    rw [stood.rate, stood.band]
  have after : (node.drop keys).clock.nanos ≤ (out.time 0).nanos := later
  rcases (refers.drop keys).unlessPaused after reads with ⟨paused, till, found⟩ | ⟨free, found⟩
  · cases answered.symm.trans found
    refine ⟨tracks, ?_⟩
    simp only [Call.foretold, paused, if_true]
    rfl
  · cases answered.symm.trans found
    have only : (do
        return (← takeToken (PaceKey mxHost) (book (PaceKey mxHost)).rate (book (PaceKey mxHost)).band.burst fuel).any
          pausedIn : Act Bool).Only Op.outward := .bind (takeToken_outward ..) fun _ => Prog.only_pure _
    refine goesOn_ensures only tracks ?_
    simp only [Call.foretold, free, Bool.false_eq_true, if_false]
    rfl

lemma acquireSession_ensures (tracks : Tracks bands book loaded [] s) (fuel : Nat) (mxHost domain : Str) :
    ((Call.acquireSession fuel mxHost domain).refused o).Ensures (sparing o bands loaded out)
      (Foretold o out bands book loaded (.acquireSession fuel mxHost domain)) { node := s } := by
  unfold Call.refused AcquireSession
  dsimp only
  cases leases : o.leases with
  | false =>
    have known : (Call.acquireSession fuel mxHost domain).loads o ++ loaded = loaded := by
      simp only [Call.loads, leases, Bool.false_eq_true, if_false, List.nil_append]
    refine ⟨known.symm ▸ tracks, ?_⟩
    simp only [Call.foretold, leases, if_true]
    rfl
  | true =>
    have known : (Call.acquireSession fuel mxHost domain).loads o ++ loaded = PaceKey mxHost :: loaded := by
      simp only [Call.loads, leases, if_true, List.singleton_append]
    have start : Tracks bands book (PaceKey mxHost :: loaded) [] s := tracks.mono (List.subset_cons_self _ _)
    simp only [not_true_eq_false, if_false, bind_assoc]
    refine (stateFor_ensures (x := { node := s }) start List.mem_cons_self).andThen ?_
    rintro ref ⟨node, n, asks⟩ ⟨tracks, count, asked, refers⟩
    cases count
    cases asked
    rintro room x ⟨keys, played, later, -, sheds, sheds', -⟩
    have answered : (node.drop keys).memory.unlessPaused ref (out.time 0) (fun st => max 1 st.conc) = room :=
      congrArg Prod.fst played
    obtain rfl : (out.player o (Scene.drop ⟨node, 0, []⟩ keys) (.locked (.room ref))).2 = x := congrArg Prod.snd played
    have tracks := (tracks.drop sheds).calm (.room ref) rfl later sheds' (by rintro _ _ _ ⟨⟩)
    rw [← known] at tracks
    have reads (st : MXState) (stood : (book (PaceKey mxHost)).Matches node.clock st) :
        max 1 st.conc = max 1 (book (PaceKey mxHost)).conc := by
      rw [stood.conc]
    have after : (node.drop keys).clock.nanos ≤ (out.time 0).nanos := later
    rcases (refers.drop keys).unlessPaused after reads with ⟨paused, till, found⟩ | ⟨free, found⟩
    · cases answered.symm.trans found
      refine ⟨tracks, ?_⟩
      simp only [Call.foretold, leases, paused, if_true]
      rfl
    · cases answered.symm.trans found
      have only : (do
          let start ← now
          return (← takeLease o (PaceKey mxHost) (max 1 (book (PaceKey mxHost)).conc) start false fuel).any
            fun found => pausedIn found.1 : Act Bool).Only Op.outward :=
        ask_outward fun _ => .bind (takeLease_outward ..) fun _ => Prog.only_pure _
      refine goesOn_ensures only tracks ?_
      simp only [Call.foretold, leases, free, Bool.false_eq_true, if_false, Bool.true_eq_false]
      rfl

lemma release_ensures (tracks : Tracks bands book loaded [] s) (key id : Str) :
    ((Call.release key id).refused o).Ensures (sparing o bands loaded out)
      (Foretold o out bands book loaded (.release key id)) { node := s } := by
  have only : ((Call.release key id).refused o).Only Op.outward :=
    ask_outward fun _ => ask_outward fun _ => Prog.only_pure _
  refine (outward_ensures (x := { node := s }) (y := { node := s }) only tracks rfl rfl).mono ?_
  rintro paused x ⟨tracks, rfl, asked⟩
  refine ⟨tracks, ?_⟩
  rw [asked]
  rfl

omit [Unicode] in
lemma set_ensures {field val : Str} {more : List (Str × Str)} {f : Except Str Unit → Act A} {post : A → Scene → Prop}
    (tracks : Tracks bands book known ((field, val) :: more) x.node)
    (rest : ∀ a x', Tracks bands book known more x'.node → x'.asked = x.asked →
      (f a).Ensures (sparing o bands loaded out) post x') :
    (set field val >>= f).Ensures (sparing o bands loaded out) post x := by
  rintro a x' ⟨keys, played, -, -, sheds, -⟩
  cases played
  exact rest _ _ ((tracks.drop sheds).put (fun _ => rfl) (fun _ => rfl)) rfl

omit [Unicode] in
lemma persist_ensures (tracks : Tracks bands book known (writes key st) x.node) :
    (persist key st).Ensures (sparing o bands loaded out)
      (fun _ x' => Tracks bands book known [] x'.node ∧ x'.asked = x.asked) x := by
  unfold writes at tracks
  unfold persist
  refine set_ensures tracks fun _ x₁ tracks first => set_ensures tracks fun _ x₂ tracks second =>
    set_ensures tracks fun _ x₃ tracks third => ?_
  have asked : x₃.asked = x.asked := (third.trans second).trans first
  by_cases zero : st.pausedUntil.IsZero = true
  · rw [if_pos zero] at tracks
    rw [if_neg (not_not.mpr zero)]
    exact ⟨tracks, asked⟩
  · rw [if_neg zero] at tracks
    rw [if_pos zero]
    exact set_ensures tracks fun _ x₄ tracks fourth => ⟨tracks, fourth.trans asked⟩

lemma proposeBand_ensures {todo : List (Str × Str)} (tracks : Tracks bands book known todo x.node) :
    (proposeBand o key st).Ensures (sparing o bands loaded out)
      (fun _ x' => Tracks bands book known todo x'.node ∧ x'.asked = x.asked) x := by
  have other (key' : Str) (name : String) : runtimeKey key' name ≠ ProposalKey key := by
    rw [ProposalKey_eq]
    exact runtimeKey_ne_limitsKey key' _ name
  unfold proposeBand
  dsimp only
  split
  · exact ⟨tracks, rfl⟩
  · rintro formedAt x₁ ⟨keys, played, later, -, sheds, -⟩
    cases played
    have tracks := (tracks.drop sheds).clocked later
    rintro written x₂ ⟨keys₂, played₂, -, -, sheds₂, -⟩
    cases played₂
    refine ⟨(tracks.drop sheds₂).put (fun key' => ?_) (fun key' => ?_), rfl⟩
    · exact flush_store (put_other (other key' _)) _
    · exact flush_store (put_other (other key' _)) _

lemma publish_ensures (paused propose : Bool)
    (tracks : Tracks bands book known (writes key st) x.node) :
    (do
      if paused ∧ o.metrics then countPause key
      if propose then proposeBand o key st
      persist key st : Act Unit).Ensures (sparing o bands loaded out)
      (fun _ x' => Tracks bands book known [] x'.node ∧ x'.asked = x.asked) x := by
  have publishes {x₁ : Scene} (tracks : Tracks bands book known (writes key st) x₁.node) (same : x₁.asked = x.asked) :
      (do
        if propose then proposeBand o key st
        persist key st : Act Unit).Ensures (sparing o bands loaded out)
        (fun _ x' => Tracks bands book known [] x'.node ∧ x'.asked = x.asked) x₁ := by
    rw [← same]
    cases propose with
    | false => exact persist_ensures tracks
    | true =>
      refine (proposeBand_ensures tracks).andThen fun _ x₂ ⟨tracks, asked⟩ => ?_
      rw [← asked]
      exact persist_ensures tracks
  by_cases pausing : paused = true ∧ o.metrics = true
  · simp only [if_pos pausing]
    rintro _ x₁ ⟨keys, played, -, -, sheds, -⟩
    cases played
    exact publishes (tracks.drop sheds) (List.append_nil _)
  · simp only [if_neg pausing]
    exact publishes tracks rfl

omit [Unicode] in
lemma Tracks.unheard {t : Time} {got : Got} {throttled : Bool} (tracks : Tracks bands book known [] s)
    (later : s.clock.nanos ≤ t.nanos) (absent : s.memory.state key = none)
    (sheds : Sheds s (s.enter o t got (.observe key throttled))) :
    Tracks bands book known [] (s.enter o t got (.observe key throttled)) := by
  refine tracks.stay (tracks.placed.run ..) later rfl (fun key' st found => .still ?_) sheds
  by_cases same : key' = key
  · subst same
    have entry := (observe_entry o t got tracks.placed key' throttled).2
    rw [absent, Option.map_none] at entry
    cases entry.symm.trans found
  · rw [← observe_others o t got tracks.placed same throttled]
    exact found

lemma observe_ensures (faithful : Codec.Faithful)
    (tracks : Tracks bands book loaded [] s) (mxHost : Str) (throttled : Bool) :
    ((Call.observe mxHost throttled).refused o).Ensures (sparing o bands loaded out)
      (Foretold o out bands book loaded (.observe mxHost throttled)) { node := s } := by
  suffices noted : (Observe o mxHost throttled).Ensures (sparing o bands loaded out) (fun _ x =>
      Tracks bands ((Call.observe mxHost throttled).enters o out loaded book) loaded [] x.node ∧ x.asked = [])
      { node := s } by
    refine noted.andThen fun _ x ⟨tracks, asked⟩ => ⟨tracks, ?_⟩
    rw [asked]
    rfl
  rintro seen x ⟨keys, played, later, -, sheds, sheds', heard⟩
  have tracks := tracks.drop sheds
  have answered : (Section.run o (out.time 0) (.ok ((s.drop keys).store (Section.observe (PaceKey mxHost)
      throttled).reads)) (s.drop keys).memory (.observe (PaceKey mxHost) throttled)).1 = seen := congrArg Prod.fst played
  rw [(observe_entry o (out.time 0) _ tracks.placed (PaceKey mxHost) throttled).1] at answered
  obtain rfl : (out.player o (Scene.drop ⟨s, 0, []⟩ keys) (.locked (.observe (PaceKey mxHost) throttled))).2 = x :=
    congrArg Prod.snd played
  cases found : (s.drop keys).memory.state (PaceKey mxHost) with
  | none =>
    -- The book does not have the key loaded either.
    have unknown : PaceKey mxHost ∉ loaded := fun member => heard (PaceKey mxHost) throttled rfl member found
    rw [found, Option.map_none] at answered
    subst answered
    refine ⟨?_, rfl⟩
    rw [Call.enters, if_neg unknown]
    exact tracks.unheard later found sheds'
  | some st =>
    have member := (tracks.entry _ st found).1
    rw [found, Option.map_some] at answered
    subst answered
    rw [Call.enters, if_pos member]
    have noted : Tracks bands (Function.update book (PaceKey mxHost)
        ((book (PaceKey mxHost)).observe o.promote (out.time 0) throttled).1) loaded
        (writes (PaceKey mxHost) (st.observe o.promote (out.time 0) throttled).1)
        (out.player o (Scene.drop ⟨s, 0, []⟩ keys) (.locked (.observe (PaceKey mxHost) throttled))).2.node :=
      tracks.observe faithful later found
    exact publish_ensures _ _ noted

/-- Whatever the call, it does what the book foretells. -/
lemma call_ensures (faithful : Codec.Faithful) {call : Call}
    (tracks : Tracks bands book loaded [] s) (paces : call.paces = true) :
    (call.refused o).Ensures (sparing o bands loaded out) (Foretold o out bands book loaded call) { node := s } := by
  cases call with
  | acquire fuel mxHost domain => exact acquire_ensures tracks fuel mxHost domain
  | acquireSession fuel mxHost domain => exact acquireSession_ensures tracks fuel mxHost domain
  | release key id => exact release_ensures tracks key id
  | observe mxHost throttled => exact observe_ensures faithful tracks mxHost throttled
  | pauseKey _ _ | resumeKey _ | promote _ => cases paces

lemma sequence_foretold (faithful : Codec.Faithful)
    {made : List (Call × Outside)} {logs : List (List Request × Bool)} (tracks : Tracks bands book loaded [] s)
    (paces : ∀ call ∈ made, call.1.paces = true) (run : Sequence o (sparing o bands) loaded made s logs) :
    logs = foretoldAll o loaded made book := by
  induction run generalizing book with
  | none => rfl
  | next ran _ ih =>
    rw [List.forall_mem_cons] at paces
    obtain ⟨tracks, told⟩ := (call_ensures faithful tracks paces.1).result ran
    rw [foretoldAll, told, ih tracks paces.2]

omit [Unicode] in
lemma booted_tracks {store : Str → Option Str} {clock : Time} (late : Time.epoch * second ≤ clock.nanos) :
    Tracks bands ((booted store clock).standing bands) [] [] (booted store clock) := by
  refine ⟨(booted_agrees store clock).placed, late, fun key st found => ?_, fun key => .refl _ _⟩
  cases found

/-- Where only spent entries are dropped and no answer about a loaded key is lost, any two
runs of the same calls ask for the same and refuse the same, whatever is dropped when. -/
theorem eviction_lossless (faithful : ∀ q, Codec.parseFloat (Codec.formatFloat q) = some (.finite q))
    {store : Str → Option Str} {clock : Time} (late : Time.epoch * second ≤ clock.nanos) {made : List (Call × Outside)}
    (paces : ∀ call ∈ made, call.1.paces = true) {logs logs' : List (List Request × Bool)}
    (run : Sequence o (sparing o bands) [] made (booted store clock) logs)
    (run' : Sequence o (sparing o bands) [] made (booted store clock) logs') : logs = logs' := by
  rw [sequence_foretold faithful (booted_tracks late) paces run, sequence_foretold faithful (booted_tracks late) paces run']

end

def placid : Outside where
  time _ := Time.ofUnix 0
  answer _ op := (standing {} {} op).1
  aside _ := Time.ofUnix 0

def dropping (o : Options) (keys : List Str) : Player calls Scene := fun x op => placid.player o (x.drop keys) op

def Op.loadsAs (bands : Str → Band) : Op → Bool
  | .locked (.install key band _) => band = bands key
  | _ => true

def regular (o : Options) (bands : Str → Band) (keys : List Str) (x : Scene) (op : Op) : Bool :=
  decide (x.node.clock.nanos ≤ (dropping o keys x op).2.node.clock.nanos) && op.loadsAs bands

lemma regular_evicting {o : Options} {bands : Str → Band} {fair : Node → Node → Op → Node → Prop} {keys : List Str}
    {x : Scene} {op : Op} (passed : regular o bands keys x op = true)
    (meets : fair x.node (x.drop keys).node op (dropping o keys x op).2.node) :
    evicting o bands fair placid x ⟨op, (dropping o keys x op).1⟩ (dropping o keys x op).2 := by
  obtain ⟨later, loads⟩ := Bool.and_eq_true_iff.mp passed
  refine ⟨keys, rfl, of_decide_eq_true later, fun key band start same => ?_, meets⟩
  cases same
  exact of_decide_eq_true loads

def Node.shedsAll (s s' : Node) : Bool :=
  s.memory.mx.keys.all fun key =>
    (s'.memory.state key).isSome || (s.memory.state key).all fun st => decide (st.Spent s'.clock)

lemma shedsAll_sheds {s s' : Node} (all : s.shedsAll s' = true) : Sheds s s' := by
  intro key st found gone
  obtain ⟨ref, tracked, -⟩ := state_eq_some.mp found
  have member : key ∈ s.memory.mx.keys := by
    apply AList.mem_keys.mp
    apply AList.lookup_isSome.mp
    rw [tracked]
    rfl
  have passed := List.all_eq_true.mp all key member
  rw [gone, found] at passed
  exact of_decide_eq_true passed

def spares (o : Options) (loaded keys : List Str) (x : Scene) (op : Op) : Bool :=
  x.node.shedsAll (x.drop keys).node && ((x.drop keys).node.shedsAll (dropping o keys x op).2.node &&
    match op with
    | .locked (.observe key _) => decide (key ∉ loaded) || ((x.drop keys).node.memory.state key).isSome
    | _ => true)

lemma spares_sparing {o : Options} {loaded keys : List Str} {x : Scene} {op : Op}
    (passed : spares o loaded keys x op = true) :
    Sparing loaded x.node (x.drop keys).node op (dropping o keys x op).2.node := by
  obtain ⟨sheds, passed⟩ := Bool.and_eq_true_iff.mp passed
  obtain ⟨sheds', heard⟩ := Bool.and_eq_true_iff.mp passed
  refine ⟨shedsAll_sheds sheds, shedsAll_sheds sheds', fun key throttled same member absent => ?_⟩
  subst same
  simp [absent, member] at heard

section
variable [Unicode] [Codec] {o : Options}

def logsOf (o : Options) : List (Call × List Str) → Node → List (List Request × Bool)
  | [], _ => []
  | (call, keys) :: more, s =>
    let played := (call.refused o).play (dropping o keys) { node := s }
    (played.2.2.asked, played.2.1) :: logsOf o more played.2.2.node

def passes (o : Options) (ok : List Str → List Str → Scene → Op → Bool) : List Str → List (Call × List Str) → Node → Bool
  | _, [], _ => true
  | loaded, (call, keys) :: more, s =>
    (call.refused o).checked (dropping o keys) (ok loaded keys) { node := s } &&
      passes o ok (call.loads o ++ loaded) more ((call.refused o).play (dropping o keys) { node := s }).2.2.node

lemma logsOf_sequence {W : List Str → Outside → World calls Scene} {ok : List Str → List Str → Scene → Op → Bool}
    (admits : ∀ loaded keys x op, ok loaded keys x op = true →
      W loaded placid x ⟨op, (dropping o keys x op).1⟩ (dropping o keys x op).2)
    {loaded : List Str} {turns : List (Call × List Str)} {s : Node} (passed : passes o ok loaded turns s = true) :
    Sequence o W loaded (turns.map fun turn => (turn.1, placid)) s (logsOf o turns s) := by
  induction turns generalizing loaded s with
  | nil => exact .none
  | cons turn more ih =>
    obtain ⟨here, rest⟩ := Bool.and_eq_true_iff.mp passed
    exact .next (Prog.checked_runs (admits loaded turn.2) _ _ here) (ih rest)

end

/-- A key is used, slowed down and used again. The entry is there all the time, is dropped
during the last call, or during the answer. -/
def threeCalls (second third : List Str) : List (Call × List Str) :=
  [(.acquire 1 (lit "mx.test") [], []), (.observe (lit "mx.test") true, second), (.acquire 1 (lit "mx.test") [], third)]

def firstMinute : Node := booted (fun _ => none) (Time.ofUnix 0)

-- The second token is taken at half the rate.
def slowing : List (List Request × Bool) :=
  [([.take (lit "mx.test") (1 / 2)], false), ([], false), ([.take (lit "mx.test") (1 / 4)], false)]

/-- Dropping a spent entry makes no difference. -/
theorem spent_unnoticed : @logsOf asciiTables exactCodec {} (threeCalls [] []) firstMinute = slowing ∧
    @logsOf asciiTables exactCodec {} (threeCalls [] []) firstMinute =
      @logsOf asciiTables exactCodec {} (threeCalls [] [lit "mx.test"]) firstMinute := by
  have admits (loaded keys : List Str) (x : Scene) (op : Op)
      (passed : (regular {} (fun _ => conservative) keys x op && spares {} loaded keys x op) = true) :
      sparing {} (fun _ => conservative) loaded placid x ⟨op, (dropping {} keys x op).1⟩ (dropping {} keys x op).2 := by
    obtain ⟨fine, spared⟩ := Bool.and_eq_true_iff.mp passed
    exact regular_evicting fine (spares_sparing spared)
  have run := @logsOf_sequence asciiTables exactCodec {} _ _ admits [] (threeCalls [] []) firstMinute (by decide +kernel)
  have run' := @logsOf_sequence asciiTables exactCodec {} _ _ admits [] (threeCalls [] [lit "mx.test"]) firstMinute
    (by decide +kernel)
  refine ⟨by decide +kernel, ?_⟩
  exact @eviction_lossless {} exactCodec (fun _ => conservative) asciiTables exactCodec_faithful _ _ (by decide) _
    (by decide) _ _ run run'

/-- An entry dropped before the answer comes takes the answer with it. -/
theorem eviction_loses_answer : ∃ (made : List (Call × Outside)) (logs logs' : List (List Request × Bool)),
    (∀ call ∈ made, call.1.paces = true) ∧
    @Sequence asciiTables exactCodec {} (fun _ => evicting {} (fun _ => conservative) fun _ _ _ _ => True) [] made firstMinute logs ∧
    @Sequence asciiTables exactCodec {} (fun _ => evicting {} (fun _ => conservative) fun _ _ _ _ => True) [] made firstMinute logs' ∧
    logs = slowing ∧
    logs' = [([.take (lit "mx.test") (1 / 2)], false), ([], false), ([.take (lit "mx.test") (1 / 2)], false)] := by
  have admits (loaded keys : List Str) (x : Scene) (op : Op) (passed : regular {} (fun _ => conservative) keys x op = true) :
      evicting {} (fun _ => conservative) (fun _ _ _ _ => True) placid x ⟨op, (dropping {} keys x op).1⟩
        (dropping {} keys x op).2 := regular_evicting passed trivial
  have run := @logsOf_sequence asciiTables exactCodec {} (fun _ => evicting {} (fun _ => conservative) fun _ _ _ _ => True)
    (fun _ => regular {} fun _ => conservative) admits [] (threeCalls [] []) firstMinute (by decide +kernel)
  have run' := @logsOf_sequence asciiTables exactCodec {} (fun _ => evicting {} (fun _ => conservative) fun _ _ _ _ => True)
    (fun _ => regular {} fun _ => conservative) admits [] (threeCalls [lit "mx.test"] []) firstMinute (by decide +kernel)
  exact ⟨_, _, _, by decide, run, run', by decide +kernel, by decide +kernel⟩

end EmailVerifier.Pacer
