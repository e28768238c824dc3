import EmailVerifier.Pacer.Pauses
import EmailVerifier.Pacer.WorkingPoint
import EmailVerifier.Semantics.Hands

/-! Whether a restart resumes where the process stood.

An entry changes under the lock and is saved after it, one field at a time. What a call has
still to write is known from its section on, so the store that will be there once all of it
is written can be told at any time. It has the entry in it as long as calls do not overtake
each other between their sections and their writes.
-/

set_option autoImplicit false

namespace EmailVerifier.Pacer
open Text Data Semantics

abbrev rateField (key : Str) : Str := runtimeKey key "rate"

/-- The pause in force at a time, to the second; one that has passed is none. -/
def MXState.pauseAt (st : MXState) (now : Time) : Option Int :=
  if now.Unix < st.pausedUntil.Unix then some st.pausedUntil.Unix else none

def Node.flush (s : Node) (todo : List (Str × Str)) : Node := todo.foldl (fun s w => s.put w.1 w.2) s

/-! ## The rate within its band -/

structure MXState.InRates (band : Band) (st : MXState) : Prop where
  fixed : st.band = band
  low : band.minRate ≤ st.rate
  high : st.rate ≤ band.maxRate

lemma MXState.InRates.observe {band : Band} {st : MXState} (ordered : band.Ordered) (inRates : st.InRates band)
    (promote : Promotion) (now : Time) (throttled : Bool) : (st.observe promote now throttled).1.InRates band := by
  obtain ⟨rfl, low, high⟩ := inRates
  have positive := ordered.minRate.trans_le low
  cases throttled with
  | true =>
    have used : (st.touch now).band = st.band ∧ (st.touch now).rate = st.rate := ⟨rfl, rfl⟩
    simp only [MXState.observe, MXState.throttle, if_true]
    split
    · refine ⟨rfl, le_max_left _ _, max_le ordered.rates ?_⟩
      rw [used.2]
      unfold backoffFactor
      linarith
    · exact ⟨rfl, low, high⟩
  | false =>
    have point := MXState.observe_clean st promote now
    refine ⟨MXState.observe_band st promote now false, ?_, ?_⟩
    · rw [point.rate]
      unfold MXState.climb
      split
      · refine le_min ordered.rates (low.trans ?_)
        change st.rate ≤ st.rate * climbFactor
        unfold climbFactor
        linarith
      · exact low
    · rw [point.rate]
      unfold MXState.climb
      split
      · exact min_le_left _ _
      · exact high

section
variable [Codec]

lemma startRate_exact {band : Band} {st : MXState}
    (faithful : Codec.Faithful) (ordered : band.Ordered) (inRates : st.InRates band) :
    startRate band (rateIn (.ok (some (Codec.formatFloat st.rate)))) = st.rate := by
  have positive := ordered.minRate.trans_le inRates.low
  have saved : rateIn (.ok (some (Codec.formatFloat st.rate))) = some (.finite st.rate) := by
    simp [rateIn, readRate, faithful, Number.nonpositive, positive]
  rw [saved]
  simp only [startRate]
  split
  · exact max_eq_right inRates.low
  · rename_i above
    exact le_antisymm (not_lt.mp above) inRates.high

structure Resumes (band : Band) (key : Str) (s : Node) (st : MXState) : Prop where
  rate : startRate band (rateIn (.ok (s.store (rateField key)))) = st.rate
  pause : st.pausedUntil.Unix = s.saved key ∨ st.pausedUntil.Unix ≤ 0 ∧ s.saved key ≤ 0

/-- What `persist` writes. -/
def writes (key : Str) (st : MXState) : List (Str × Str) :=
  [(rateField key, Codec.formatFloat st.rate), (runtimeKey key "conc", formatInt st.conc),
    (runtimeKey key "state", st.state.name)] ++
    if st.pausedUntil.IsZero then [] else [(pauseField key, formatInt st.pausedUntil.Unix)]

end

variable {key : Str} {s : Node} {field : String}

lemma runtimeKey_inj {field' : String} (same : runtimeKey key field = runtimeKey key field') :
    lit field = lit field' := List.append_cancel_left same

lemma put_other {val key' : Str} (other : key' ≠ key) : (s.put key val).store key' = s.store key' := by
  rw [Node.put_store, if_neg other]

lemma saved_put_field (val : Str) (other : (lit field).getLast? ≠ some 108)
    (filled : lit field ≠ []) : (s.put (runtimeKey key field) val).saved key = s.saved key :=
  saved_put_other val (fun key' => runtimeKey_ne_pauseField key key' other filled) key

lemma rate_ne (other : lit "rate" ≠ lit field) : rateField key ≠ runtimeKey key field :=
  fun same => other (runtimeKey_inj same)

section
variable [Codec] {band : Band} {key : Str} {s : Node} {st : MXState}

omit [Codec] in
lemma flush_other {field : Str} {todo : List (Str × Str)} (others : ∀ w ∈ todo, field ≠ w.1) (s : Node) :
    (s.flush todo).store field = s.store field := by
  induction todo generalizing s with
  | nil => rfl
  | cons w more ih =>
    rw [List.forall_mem_cons] at others
    exact (ih others.2 _).trans (put_other others.1)

lemma rate_writes (s : Node) (key : Str) (st : MXState) :
    (s.flush (writes key st)).store (rateField key) = some (Codec.formatFloat st.rate) := by
  have later : ∀ w ∈ (writes key st).tail, rateField key ≠ w.1 := by
    intro w member
    unfold writes at member
    split at member
    all_goals
      simp only [List.append_nil, List.cons_append, List.nil_append, List.tail_cons, List.mem_cons,
        List.not_mem_nil, or_false] at member
      rcases member with rfl | rfl | rfl
      all_goals exact rate_ne (by decide)
  have split : writes key st = (rateField key, Codec.formatFloat st.rate) :: (writes key st).tail := rfl
  rw [split]
  exact (flush_other later _).trans (by rw [Node.put_store, if_pos rfl])

lemma saved_writes (s : Node) (key : Str) (st : MXState) :
    (s.flush (writes key st)).saved key = if st.pausedUntil.IsZero then s.saved key else st.pausedUntil.Unix := by
  have three : ((((s.put (rateField key) (Codec.formatFloat st.rate)).put (runtimeKey key "conc") (formatInt st.conc)).put
      (runtimeKey key "state") st.state.name)).saved key = s.saved key := by
    rw [saved_put_field _ (by decide) (by decide), saved_put_field _ (by decide) (by decide),
      saved_put_field _ (by decide) (by decide)]
  unfold Node.flush writes
  split
  · exact three
  · simp only [List.cons_append, List.nil_append, List.foldl_cons, List.foldl_nil]
    rw [saved_put_pause, if_pos rfl]

lemma resumes_writes (faithful : Codec.Faithful) (ordered : band.Ordered) (inRates : st.InRates band)
    (unset : st.pausedUntil.IsZero = true → st.pausedUntil.Unix = s.saved key ∨ st.pausedUntil.Unix ≤ 0 ∧ s.saved key ≤ 0) :
    Resumes band key (s.flush (writes key st)) st := by
  refine ⟨?_, ?_⟩
  · rw [rate_writes]
    exact startRate_exact faithful ordered inRates
  · rw [saved_writes]
    split
    · rename_i zero
      exact unset zero
    · exact .inl rfl

end

/-! ## What a call has still to write -/

structure Writer where
  todo : List (Str × Str) := []
  -- The saved rate as it was read last.
  read : Option Got := none

def Writer.wrote (w : Writer) (field val : Str) : Writer :=
  if w.todo.head? = some (field, val) then { w with todo := w.todo.tail } else w

section
variable [Codec] (key : Str)

def Writer.note (w : Writer) : Event calls → Writer
  | ⟨.get field, got⟩ => if field = rateField key then { w with read := some got } else w
  | ⟨.set field val, _⟩ => w.wrote field val
  | ⟨.locked (.observe _ _), some seen⟩ => { w with todo := writes key seen.1 }
  | ⟨.locked (.pauseKey _ till), _⟩ => { w with todo := [(pauseField key, formatInt till.Unix)] }
  | ⟨.locked (.resumeKey _), _⟩ => { w with todo := [(pauseField key, lit "0")] }
  | _ => w

/-- A call writes what it has to, in order, and enters a section about this key only when
it has nothing left to write. It loads the key at the rate it read. -/
def Writer.mayDo (w : Writer) : Op → Prop
  | .set field val => w.todo.head? = some (field, val) ∨ ∀ name, field ≠ runtimeKey key name
  | .locked (.find key') => key' = key
  | .locked (.observe key' _) | .locked (.pauseKey key' _) | .locked (.resumeKey key') => key' = key ∧ w.todo = []
  | .locked (.install key' band start) => key' = key ∧ band.Ordered ∧ w.todo = [] ∧
      ∃ got, w.read = some got ∧ start = startRate band (rateIn got)
  | .locked _ => False
  | _ => True

abbrev Writes : World calls Writer := World.guarded (fun w e => w.mayDo key e.op) (Writer.note key)

end

section
variable [Codec] {key : Str} {w : Writer} {A : Type} {post : A → Writer → Prop}

lemma set_writes {field val : Str} {f : Except Str Unit → Act A} {more : List (Str × Str)}
    (next : w.todo = (field, val) :: more) (rest : ∀ a, (f a).Follows (Writes key) post { w with todo := more }) :
    (set field val >>= f).Follows (Writes key) post w := by
  have head : w.todo.head? = some (field, val) := by rw [next, List.head?_cons]
  apply Prog.Follows.heed fun _ => .inl head
  intro a
  have noted : Writer.note key w ⟨.set field val, a⟩ = { w with todo := more } := by
    change w.wrote field val = _
    rw [Writer.wrote, if_pos head, next, List.tail_cons]
  rw [noted]
  exact rest a

lemma persist_writes {st : MXState} (todo : w.todo = writes key st) :
    (persist key st).Follows (Writes key) (fun _ w' => w'.todo = []) w := by
  unfold writes at todo
  unfold persist
  refine set_writes todo fun _ => set_writes rfl fun _ => set_writes rfl fun _ => ?_
  by_cases zero : st.pausedUntil.IsZero = true
  · rw [if_neg (not_not.mpr zero)]
    exact if_pos zero
  · rw [if_pos zero]
    exact set_writes (if_neg zero) fun _ => rfl

variable [Unicode]

variable {o : Options} {mxHost : Str}

lemma proposeBand_writes {st : MXState} {f : Unit → Act A} (todo : w.todo = writes key st)
    (rest : (f ()).Follows (Writes key) post w) : (proposeBand o key st >>= f).Follows (Writes key) post w := by
  have other (name : String) : ProposalKey key ≠ runtimeKey key name := by
    rw [ProposalKey_eq]
    exact (runtimeKey_ne_limitsKey key _ name).symm
  have kept (val : Str) : w.wrote (ProposalKey key) val = w := by
    refine if_neg fun head => ?_
    rw [todo] at head
    cases head
  unfold proposeBand
  dsimp only
  split
  · exact rest
  · apply Prog.Follows.bind
    apply Prog.Follows.heed fun _ => trivial
    intro formedAt
    apply Prog.Follows.heed fun _ => .inr other
    intro a
    change Prog.Follows (Writes key) _ _ (w.wrote _ _)
    rw [kept]
    exact rest

lemma Observe_writes {throttled : Bool} (about : PaceKey mxHost = key) (done : w.todo = []) :
    (Observe o mxHost throttled).Follows (Writes key) (fun _ w' => w'.todo = []) w := by
  unfold Observe
  rw [about]
  apply Prog.Follows.heed fun _ => ⟨rfl, done⟩
  intro seen
  rcases seen with _ | ⟨snapshot, paused, propose⟩
  · exact done
  · have publishes : (do
        if propose then proposeBand o key snapshot
        persist key snapshot : Act Unit).Follows (Writes key) (fun _ w' => w'.todo = [])
          { w with todo := writes key snapshot } := by
      cases propose with
      | true => exact proposeBand_writes rfl (persist_writes rfl)
      | false => exact persist_writes rfl
    change Prog.Follows (Writes key) _ _ { w with todo := writes key snapshot }
    dsimp only
    split
    · apply Prog.Follows.heed fun _ => trivial
      exact fun _ => publishes
    · exact publishes

lemma PauseKey_writes {till : Time} (about : PaceKey mxHost = key) (done : w.todo = []) :
    (PauseKey o mxHost till).Follows (Writes key) (fun _ w' => w'.todo = []) w := by
  unfold PauseKey
  rw [about]
  apply Prog.Follows.heed fun _ => ⟨rfl, done⟩
  intro _
  have saves : (set (pauseField key) (formatInt till.Unix)).Follows (Writes key) (fun _ w' => w'.todo = [])
      { w with todo := [(pauseField key, formatInt till.Unix)] } :=
    .of_bind (f := pure) (set_writes rfl fun _ => rfl)
  change Prog.Follows (Writes key) _ _ { w with todo := [(pauseField key, formatInt till.Unix)] }
  dsimp only
  split
  · apply Prog.Follows.heed fun _ => trivial
    exact fun _ => saves
  · exact saves

lemma ResumeKey_writes (about : PaceKey mxHost = key) (done : w.todo = []) :
    (ResumeKey mxHost).Follows (Writes key) (fun _ w' => w'.todo = []) w := by
  unfold ResumeKey
  rw [about]
  apply Prog.Follows.heed fun _ => ⟨rfl, done⟩
  intro _
  exact .of_bind (f := pure) (set_writes rfl fun _ => rfl)

lemma stateFor_writes {domain : Str} (done : w.todo = []) :
    (stateFor key domain).Follows (Writes key) (fun _ w' => w'.todo = []) w := by
  apply Prog.Follows.heed fun _ => rfl
  intro found
  cases found with
  | some ref => exact done
  | none =>
    apply Prog.Follows.heed fun _ => trivial
    intro limits
    change Prog.Follows (Writes key) _ _ (if limitsKey key = rateField key then { w with read := some limits } else w)
    rw [if_neg (runtimeKey_ne_limitsKey key key "rate").symm]
    apply Prog.Follows.heed fun _ => trivial
    intro got
    change Prog.Follows (Writes key) _ _ (if rateField key = rateField key then { w with read := some got } else w)
    rw [if_pos rfl]
    apply Prog.Follows.ask
    exact fun ref => ⟨_, ⟨⟨rfl, (bandIn_normal key domain limits).toOrdered, done, got, rfl, rfl⟩, rfl⟩, done⟩

end

/-! ## Calls about one key -/

/-- The calls about one key: answers, pauses and their ends, and loads. -/
inductive About [Unicode] [Codec] (o : Options) (key : Str) : Act Unit → Prop where
  | observe {mxHost : Str} {throttled : Bool} : PaceKey mxHost = key → About o key (Observe o mxHost throttled)
  | pauseKey {mxHost : Str} {till : Time} : PaceKey mxHost = key →
      About o key (Functor.discard (PauseKey o mxHost till))
  | resumeKey {mxHost : Str} : PaceKey mxHost = key → About o key (Functor.discard (ResumeKey mxHost))
  | load {domain : Str} : About o key (Functor.discard (stateFor key domain))

lemma About.writes [Unicode] [Codec] {o : Options} {p : Act Unit} (about : About o key p) :
    p.Follows (Writes key) (fun _ w' => w'.todo = []) {} := by
  cases about with
  | observe same => exact Observe_writes same rfl
  | pauseKey same => exact (PauseKey_writes same rfl).andThen fun _ _ done => done
  | resumeKey same => exact (ResumeKey_writes same rfl).andThen fun _ _ done => done
  | load => exact (stateFor_writes rfl).andThen fun _ _ done => done

/-- A store that does not fail, a clock after 1970, and one band for the key. -/
def banded (o : Options) (key : Str) (band : Band) : World calls Node := fun s e s' =>
  Serves o false s e s' ∧ Time.epoch * second ≤ s'.clock.nanos ∧
    ∀ band' start, e.op = .locked (.install key band' start) → band' = band

def keyed [Unicode] [Codec] (o : Options) (key : Str) (band : Band) : Rules calls Unit Node where
  world := banded o key band
  job := About o key
  mayCrash _ _ := False

def Section.stirs : Section → Bool
  | .install _ _ _ | .observe _ _ | .pauseKey _ _ | .resumeKey _ => true
  | _ => false

/-- The condition on an event: while a call has something left to write, no other enters a
section that changes the entry or loads it. -/
def InTurn : Condition calls Writer Node := fun others _ _ e _ =>
  match e.op with
  | .locked sec => sec.stirs = true → ∀ w ∈ others, w.todo = []
  | _ => True

/-! ## The store once all is written -/

def outstanding (running : List Writer) : List (Str × Str) := running.flatMap Writer.todo

lemma outstanding_middle (before after : List Writer) (w : Writer) :
    outstanding (before ++ w :: after) = outstanding before ++ (w.todo ++ outstanding after) := by
  simp [outstanding]

lemma outstanding_alone {before after : List Writer} (others : ∀ g ∈ before ++ after, g.todo = []) (w : Writer) :
    outstanding (before ++ w :: after) = w.todo := by
  have none {running : List Writer} (idle : ∀ g ∈ running, g.todo = []) : outstanding running = [] := by
    simpa [outstanding, List.flatMap_eq_nil_iff] using idle
  rw [outstanding_middle, none fun g member => others g (List.mem_append_left _ member),
    none fun g member => others g (List.mem_append_right _ member), List.nil_append, List.append_nil]

lemma outstanding_congr {before after : List Writer} {w w' : Writer} (same : w'.todo = w.todo) :
    outstanding (before ++ w' :: after) = outstanding (before ++ w :: after) := by
  rw [outstanding_middle, outstanding_middle, same]

lemma flush_store {s' : Node} {field : Str} (same : s'.store field = s.store field) (todo : List (Str × Str)) :
    (s'.flush todo).store field = (s.flush todo).store field := by
  induction todo generalizing s s' with
  | nil => exact same
  | cons w more ih =>
    apply ih
    rw [Node.put_store, Node.put_store, same]

section
variable [Codec] {band : Band} {key : Str} {first : Option Str} {s s' : Node} {before after : List Writer} {w w' : Writer}

lemma Resumes.congr {st st' : MXState} (resumes : Resumes band key s st)
    (rates : s'.store (rateField key) = s.store (rateField key))
    (pauses : s'.store (pauseField key) = s.store (pauseField key)) (rate : st'.rate = st.rate)
    (pause : st'.pausedUntil = st.pausedUntil) : Resumes band key s' st' := by
  have saved : s'.saved key = s.saved key := by rw [Node.saved, Node.saved, pauses]
  refine ⟨?_, ?_⟩
  · rw [rates, rate]
    exact resumes.rate
  · rw [saved, pause]
    exact resumes.pause

/-- The entry is in the store once all is written, which is for one call at most to do. A
key that is not loaded has the rate saved that it had at first. -/
structure Settling (band : Band) (key : Str) (first : Option Str) (s : Node) (running : List Writer) : Prop where
  placed : s.memory.Placed
  turn : ∀ w ∈ running, w.todo = [] ∨ w.todo = outstanding running
  entry : ∀ st, s.memory.state key = some st →
    band.Ordered ∧ st.InRates band ∧ Resumes band key (s.flush (outstanding running)) st
  fresh : s.memory.state key = none → s.store (rateField key) = first ∧
    ∀ w ∈ running, (∀ got, w.read = some got → got = .ok first) ∧ ∀ val, (rateField key, val) ∉ w.todo

lemma Settling.others (settling : Settling band key first s (before ++ w :: after)) (some : w.todo ≠ []) :
    ∀ g ∈ before ++ after, g.todo = [] := by
  have whole := (settling.turn w mem_here).resolve_left some
  rw [outstanding_middle] at whole
  have lengths := congrArg List.length whole
  simp only [List.length_append] at lengths
  have none {running : List Writer} (empty : (outstanding running).length = 0) : ∀ g ∈ running, g.todo = [] := by
    simpa [outstanding, List.flatMap_eq_nil_iff] using List.length_eq_zero_iff.mp empty
  intro g member
  rcases List.mem_append.mp member with here | here
  · exact none (by omega) g here
  · exact none (by omega) g here

omit [Codec] in
lemma turn_alone (others : ∀ g ∈ before ++ after, g.todo = []) (w : Writer) :
    ∀ g ∈ before ++ w :: after, g.todo = [] ∨ g.todo = outstanding (before ++ w :: after) := by
  intro g member
  rcases mem_middle.mp member with rfl | other
  · exact .inr (outstanding_alone others g).symm
  · exact .inl (others g other)

section
variable (settling : Settling band key first s (before ++ w :: after))
include settling

lemma Settling.kept (placed : s'.memory.Placed) (todo : w'.todo = w.todo)
    (read : s.memory.state key = none → ∀ got, w'.read = some got → got = .ok first)
    (rates : s'.store (rateField key) = s.store (rateField key))
    (pauses : s'.store (pauseField key) = s.store (pauseField key))
    (absent : s'.memory.state key = none → s.memory.state key = none) (entry : ∀ st', s'.memory.state key = some st' →
      ∃ st, s.memory.state key = some st ∧ st.SamePoint st' ∧ st'.pausedUntil = st.pausedUntil) :
    Settling band key first s' (before ++ w' :: after) := by
  refine ⟨placed, fun g member => ?_, fun st' found => ?_, fun untracked => ?_⟩
  · rw [outstanding_congr todo]
    rcases mem_middle.mp member with rfl | other
    · rw [todo]
      exact settling.turn w mem_here
    · exact settling.turn g (mem_stays other)
  · obtain ⟨st, old, same, pause⟩ := entry st' found
    obtain ⟨ordered, inRates, resumes⟩ := settling.entry st old
    rw [outstanding_congr todo]
    refine ⟨ordered, ⟨same.band.trans inRates.fixed, ?_, ?_⟩,
      resumes.congr (flush_store rates _) (flush_store pauses _) same.rate pause⟩
    · rw [same.rate]
      exact inRates.low
    · rw [same.rate]
      exact inRates.high
  · obtain ⟨unsaved, running⟩ := settling.fresh (absent untracked)
    refine ⟨rates.trans unsaved, fun g member => ?_⟩
    rcases mem_middle.mp member with rfl | other
    · rw [todo]
      exact ⟨read (absent untracked), (running w mem_here).2⟩
    · exact running g (mem_stays other)

lemma Settling.wrote {field val : Str} {more : List (Str × Str)} (next : w.todo = (field, val) :: more) :
    Settling band key first (s.put field val) (before ++ { w with todo := more } :: after) := by
  have others := settling.others (by rw [next]; simp)
  refine ⟨settling.placed, turn_alone others _, fun st found => ?_, fun untracked => ?_⟩
  · obtain ⟨ordered, inRates, resumes⟩ := settling.entry st found
    rw [outstanding_alone others, next] at resumes
    rw [outstanding_alone others]
    exact ⟨ordered, inRates, resumes⟩
  · obtain ⟨unsaved, running⟩ := settling.fresh untracked
    obtain ⟨read, unrated⟩ := running w mem_here
    rw [next] at unrated
    refine ⟨?_, fun g member => ?_⟩
    · rw [put_other, unsaved]
      rintro rfl
      exact unrated val List.mem_cons_self
    · rcases mem_middle.mp member with rfl | other
      · exact ⟨read, fun val' there => unrated val' (List.mem_cons_of_mem _ there)⟩
      · exact running g (mem_stays other)

lemma Settling.stirred {todo : List (Str × Str)} (others : ∀ g ∈ before ++ after, g.todo = [])
    (placed : s'.memory.Placed) (store : s'.store = s.store)
    (entry : ∀ st, s'.memory.state key = some st → band.Ordered ∧ st.InRates band ∧ Resumes band key (s.flush todo) st)
    (absent : s'.memory.state key = none → s.memory.state key = none ∧ ∀ val, (rateField key, val) ∉ todo) :
    Settling band key first s' (before ++ { w with todo := todo } :: after) := by
  refine ⟨placed, turn_alone others _, fun st found => ?_, fun untracked => ?_⟩
  · obtain ⟨ordered, inRates, resumes⟩ := entry st found
    rw [outstanding_alone others]
    refine ⟨ordered, inRates, resumes.congr ?_ ?_ rfl rfl⟩
    · exact flush_store (by rw [store]) _
    · exact flush_store (by rw [store]) _
  · obtain ⟨before, unrated⟩ := absent untracked
    obtain ⟨unsaved, running⟩ := settling.fresh before
    refine ⟨by rw [store, unsaved], fun g member => ?_⟩
    rcases mem_middle.mp member with rfl | other
    · exact ⟨(running w mem_here).1, unrated⟩
    · exact running g (mem_stays other)

end

end

lemma add_not_zero {now : Time} {d : Int} (late : Time.epoch * second ≤ now.nanos) (fits : Fits64 d) :
    (now.Add d).IsZero = false := by
  have bound := now.fits
  unfold Time.IsZero Time.Add Time.wrapped wrap64 Int.bmod
  unfold Time.epoch at late
  unfold Fits64 at bound fits
  unfold second at *
  rw [decide_eq_false_iff_not]
  dsimp only
  split <;> omega

lemma saved_put_zero (s : Node) (key : Str) : (s.put (pauseField key) (lit "0")).saved key = 0 := by
  rw [Node.saved, Node.put_store, if_pos rfl]
  decide +kernel

section
variable [Codec] {o : Options} {band : Band} {key : Str} {first : Option Str} {s s' : Node} {before after : List Writer}
  {w : Writer} {e : Event calls}

variable {t : Time} {got : Got} {st : MXState}

section
variable (settling : Settling band key first s (before ++ w :: after)) (others : ∀ g ∈ before ++ after, g.todo = [])
  (done : w.todo = [])
include settling others done

lemma Settling.current (found : s.memory.state key = some st) :
    band.Ordered ∧ st.InRates band ∧ Resumes band key s st := by
  have entry := settling.entry st found
  rw [outstanding_alone others, done] at entry
  exact entry

lemma Settling.observe (faithful : Codec.Faithful) {throttled : Bool} (late : Time.epoch * second ≤ t.nanos)
    (found : s.memory.state key = some st) :
    Settling band key first (s.enter o t got (.observe key throttled))
      (before ++ { w with todo := writes key (st.observe o.promote t throttled).1 } :: after) := by
  have entry : (s.enter o t got (.observe key throttled)).memory.state key = _ :=
    (observe_entry o t got settling.placed key throttled).2
  rw [found, Option.map_some] at entry
  obtain ⟨ordered, inRates, resumes⟩ := settling.current others done found
  refine settling.stirred others (settling.placed.run ..) rfl (fun st' found' => ?_) fun untracked => ?_
  · cases entry.symm.trans found'
    refine ⟨ordered, inRates.observe ordered _ _ _, resumes_writes faithful ordered (inRates.observe ordered _ _ _) ?_⟩
    intro zero
    rcases observe_pausedUntil st o.promote t throttled with same | ⟨-, -, floored⟩
    · rw [same]
      exact resumes.pause
    · have real : (t.Add st.band.pauseFor).IsZero = false := add_not_zero late (wrap64_fits _)
      rw [floored, real] at zero
      cases zero
  · cases entry.symm.trans untracked

/-- The entry gets another pause and nothing else, and that pause is what will be saved. -/
lemma Settling.repaused {till : Time} {state : Phase} {val : Str} (placed : s'.memory.Placed) (store : s'.store = s.store)
    (entry : s'.memory.state key = (s.memory.state key).map fun st => { st with pausedUntil := till, state := state })
    (saved : till.Unix = (s.put (pauseField key) val).saved key ∨
      till.Unix ≤ 0 ∧ (s.put (pauseField key) val).saved key ≤ 0) :
    Settling band key first s' (before ++ { w with todo := [(pauseField key, val)] } :: after) := by
  have apart : rateField key ≠ pauseField key := rate_ne (by decide)
  refine settling.stirred others placed store (fun st' found' => ?_) fun untracked => ⟨?_, fun val member => ?_⟩
  · rw [entry] at found'
    obtain ⟨st, found, rfl⟩ := Option.map_eq_some_iff.mp found'
    obtain ⟨ordered, inRates, resumes⟩ := settling.current others done found
    refine ⟨ordered, ⟨inRates.fixed, inRates.low, inRates.high⟩, ?_, saved⟩
    rw [Node.flush, List.foldl_cons, List.foldl_nil, put_other apart]
    exact resumes.rate
  · rw [entry] at untracked
    exact Option.map_eq_none_iff.mp untracked
  · exact apart (congrArg Prod.fst (List.mem_singleton.mp member))

lemma Settling.pauseKey {till : Time} :
    Settling band key first (s.enter o t got (.pauseKey key till))
      (before ++ { w with todo := [(pauseField key, formatInt till.Unix)] } :: after) := by
  refine settling.repaused others done (settling.placed.run ..) rfl (pauseKey_entry o t got settling.placed key till) (.inl ?_)
  rw [saved_put_pause, if_pos rfl]

lemma Settling.resumeKey :
    Settling band key first (s.enter o t got (.resumeKey key))
      (before ++ { w with todo := [(pauseField key, lit "0")] } :: after) := by
  have never : Time.zero.Unix ≤ 0 := by decide
  refine settling.repaused others done (settling.placed.run ..) rfl (resumeKey_entry o t got settling.placed key) (.inr ⟨never, ?_⟩)
  rw [saved_put_zero]

lemma Settling.install {start : ℚ} (ordered : band.Ordered)
    (read : w.read = some got) (begins : start = startRate band (rateIn got)) :
    Settling band key first (s.enter o t (.ok (s.store (pauseField key))) (.install key band start))
      (before ++ w :: after) := by
  have entry : (s.enter o t (.ok (s.store (pauseField key))) (.install key band start)).memory.state key = _ :=
    install_entry o t _ settling.placed key band start
  cases found : s.memory.state key with
  | some st =>
    rw [found, Option.elim_some] at entry
    refine settling.kept (settling.placed.run ..) rfl (fun none => by cases found.symm.trans none) rfl rfl
      (fun untracked => by cases entry.symm.trans untracked) fun st' found' => ?_
    cases entry.symm.trans found'
    exact ⟨st, found, st.touch_samePoint t, rfl⟩
  | none =>
    rw [found, Option.elim_none] at entry
    obtain ⟨unsaved, running⟩ := settling.fresh found
    have given := (running w mem_here).1 got read
    have here : ({ w with todo := [] } : Writer) = w := by rw [← done]
    rw [← here]
    refine settling.stirred others (settling.placed.run ..) rfl (fun st' found' => ?_) fun untracked => ?_
    · cases entry.symm.trans found'
      obtain ⟨fixed, rate⟩ := loaded_point band start t (savedPause (.ok (s.store (pauseField key))))
      have within := startRate_spec ordered (rateIn got)
      refine ⟨ordered, ⟨fixed, ?_, ?_⟩, ?_, .inl ?_⟩
      · rw [rate, begins]
        exact within.1
      · rw [rate, begins]
        exact within.2
      · rw [rate, begins, given, ← unsaved]
        rfl
      · rw [loaded_pausedUntil]
        rfl
    · cases entry.symm.trans untracked

end

lemma Settling.act (faithful : Codec.Faithful) (settling : Settling band key first s (before ++ w :: after)) (may : w.mayDo key e.op)
    (served : banded o key band s e s') (fair : InTurn (before ++ after) s w e s') :
    Settling band key first s' (before ++ w.note key e :: after) := by
  obtain ⟨served, late, fixed⟩ := served
  have read (untracked : s.memory.state key = none) := ((settling.fresh untracked).2 w mem_here).1
  have same (st : MXState) (found : s.memory.state key = some st) :
      ∃ st', s.memory.state key = some st' ∧ st'.SamePoint st ∧ st.pausedUntil = st'.pausedUntil :=
    ⟨st, found, ⟨rfl, rfl, rfl, rfl⟩, rfl⟩
  cases served with
  | now => exact settling.kept settling.placed rfl read rfl rfl id same
  | @got _ field =>
    change Settling _ _ _ _ (before ++ (if field = rateField key then { w with read := some (.ok (s.store field)) } else w)
      :: after)
    split
    · rename_i here
      refine settling.kept settling.placed rfl (fun untracked got noted => ?_) rfl rfl id same
      rw [← (settling.fresh untracked).1, ← here]
      exact (Option.some.inj noted).symm
    · exact settling
  | unread faulty | unwritten faulty | unheard faulty => cases faulty
  | @put _ field val =>
    change Settling _ _ _ _ (before ++ w.wrote field val :: after)
    by_cases head : w.todo.head? = some (field, val)
    · obtain ⟨more, next⟩ := List.head?_eq_some_iff.mp head
      rw [Writer.wrote, if_pos head, next, List.tail_cons]
      exact settling.wrote next
    · have other := may.resolve_left head
      rw [Writer.wrote, if_neg head]
      exact settling.kept settling.placed rfl read (put_other (other _).symm) (put_other (other _).symm) id same
  | @other _ e elsewhere =>
    obtain ⟨op, a⟩ := e
    cases op <;> first | exact settling | cases elsewhere
  | @entered _ sec t got stored =>
    have stored : got = .ok (s.store sec.reads) := stored.resolve_right fun faulty => by cases faulty.1
    subst stored
    cases sec with
    | find key' =>
      cases (show key' = key from may)
      have entry := find_entry o t (.ok (s.store (Section.find key).reads)) settling.placed key
      refine settling.kept (settling.placed.run ..) rfl read rfl rfl (fun untracked => ?_) fun st' found' => ?_
      · exact Option.map_eq_none_iff.mp (entry.symm.trans untracked)
      · obtain ⟨st, found, rfl⟩ := Option.map_eq_some_iff.mp (entry.symm.trans found')
        exact ⟨st, found, st.touch_samePoint t, rfl⟩
    | install key' band' start =>
      obtain ⟨rfl, ordered, done, got, read, begins⟩ := may
      cases fixed _ _ rfl
      exact settling.install (fair rfl) done ordered read begins
    | observe key' throttled =>
      obtain ⟨rfl, done⟩ := may
      obtain ⟨seen, entry⟩ := observe_entry o t (.ok (s.store (Section.observe key' throttled).reads)) settling.placed key' throttled
      cases found : s.memory.state key' with
      | some st =>
        rw [found, Option.map_some] at seen
        have noted : w.note key' ⟨.locked (.observe key' throttled), some (st.observe o.promote t throttled)⟩ =
          { w with todo := writes key' (st.observe o.promote t throttled).1 } := rfl
        rw [seen, noted]
        exact settling.observe (fair rfl) done faithful late found
      | none =>
        rw [found] at seen entry
        rw [seen]
        change Settling _ _ _ _ (before ++ w :: after)
        refine settling.kept (settling.placed.run ..) rfl read rfl rfl (fun _ => found) fun st found' => ?_
        cases entry.symm.trans found'
    | pauseKey key' till =>
      obtain ⟨rfl, done⟩ := may
      exact settling.pauseKey (fair rfl) done
    | resumeKey key' =>
      obtain ⟨rfl, done⟩ := may
      exact settling.resumeKey (fair rfl) done
    | budget _ | room _ | enter _ | leave _ | forget _ => exact may.elim

variable [Unicode]

lemma keyed_settling (faithful : Codec.Faithful) :
    Keeping (keyed o key band) (fun w e => w.mayDo key e.op) (Writer.note key) {} InTurn (fun _ w => w.todo = [])
      (fun s running _ => Settling band key first s running) where
  join s running gone settling := by
    have same : outstanding (running ++ [({} : Writer)]) = outstanding running := by simp [outstanding]
    refine ⟨settling.placed, fun w member => ?_, fun st found => ?_, fun untracked => ?_⟩
    · rw [same]
      rcases List.mem_append.mp member with old | new
      · exact settling.turn w old
      · exact .inl (List.mem_singleton.mp new ▸ rfl)
    · rw [same]
      exact settling.entry st found
    · obtain ⟨unsaved, running⟩ := settling.fresh untracked
      exact ⟨unsaved, forall_mem_snoc.mpr ⟨running, nofun, nofun⟩⟩
  act s s' before w after gone e settling may served fair := settling.act faithful may served fair
  leave s before w after gone settling leaves := by
    have done : w.todo = [] := by
      rcases leaves with ⟨_, done⟩ | ⟨_, _, crashed⟩
      · exact done
      · exact crashed.elim
    have same : outstanding (before ++ w :: after) = outstanding (before ++ after) := by
      rw [outstanding_middle, done, List.nil_append]
      simp [outstanding]
    refine ⟨settling.placed, fun g member => ?_, fun st found => ?_, fun untracked => ?_⟩
    · rw [← same]
      exact settling.turn g (mem_stays member)
    · rw [← same]
      exact settling.entry st found
    · obtain ⟨unsaved, running⟩ := settling.fresh untracked
      exact ⟨unsaved, fun g member => running g (mem_stays member)⟩
  drift pool s' running gone drifts := drifts.elim

lemma reached_settling (faithful : Codec.Faithful) {store : Str → Option Str} {clock : Time} {pool : Pool calls Unit Node}
    (reached : Pool.ReachesIf (keyed o key band) (Writer.note key) {} InTurn { shared := booted store clock } pool) :
    Settling band key (store (rateField key)) pool.shared (pool.hands (Writer.note key) {}) := by
  have orderly : Pool.Orderly (fun w e => Writer.mayDo key w e.op) (Writer.note key) (fun _ w => w.todo = []) {}
      ({ shared := booted store clock } : Pool calls Unit Node) := ⟨by simp, by simp⟩
  have start : Settling band key (store (rateField key)) (booted store clock) [] := by
    refine ⟨(booted_agrees store clock).placed, nofun, fun st found => ?_, fun _ => ⟨rfl, nofun⟩⟩
    cases found
  exact ((keyed_settling faithful).reached (fun _ about => about.writes) orderly start reached).2

/-! ## Loading it again -/

omit [Codec] [Unicode] in
lemma find_absent {m : Memory} (absent : m.mx.lookup key = none) : Section.run o t got m (.find key) = (none, m) := by
  simp only [Section.run, absent]
  rfl

lemma stateFor_loads {domain : Str} (placed : s.memory.Placed) (absent : s.memory.mx.lookup key = none) :
    (stateFor key domain).Ensures (banded o key band) (fun _ s' => ∃ st, s'.memory.state key = some st ∧
      st.rate = startRate band (rateIn (.ok (s.store (rateField key)))) ∧ st.pausedUntil.Unix = s.saved key) s := by
  rintro found s₁ ⟨served, -⟩
  cases served with
  | other elsewhere => cases elsewhere
  | entered _ =>
    rw [Node.enter, find_absent absent]
    rintro limits s₂ ⟨served, -⟩
    cases served with
    | unread faulty => cases faulty
    | other elsewhere => cases elsewhere
    | got =>
      rintro saved s₃ ⟨served, -⟩
      cases served with
      | unread faulty => cases faulty
      | other elsewhere => cases elsewhere
      | got =>
        rintro ref s₄ ⟨served, -, fixed⟩
        have same := fixed _ _ rfl
        cases served with
        | other elsewhere => cases elsewhere
        | @entered _ _ t got stored =>
          have stored := stored.resolve_right fun faulty => by cases faulty.1
          rw [same]
          have entry := install_entry o t got placed key band (startRate band (rateIn (.ok (s.store (rateField key)))))
          rw [state_none absent, Option.elim_none] at entry
          refine ⟨_, entry, (loaded_point _ _ t _).2, ?_⟩
          rw [loaded_pausedUntil, stored]
          rfl

omit [Unicode] in
lemma Resumes.reloaded {st' : MXState} (resumes : Resumes band key s st)
    (rate : st'.rate = startRate band (rateIn (.ok (s.store (rateField key)))))
    (pause : st'.pausedUntil.Unix = s.saved key) :
    st'.rate = st.rate ∧ ∀ now : Time, 0 ≤ now.Unix → st'.pauseAt now = st.pauseAt now := by
  refine ⟨rate.trans resumes.rate, fun now late => ?_⟩
  unfold MXState.pauseAt
  rw [pause]
  rcases resumes.pause with same | ⟨passed, passed'⟩
  · rw [same]
  · rw [if_neg (by omega), if_neg (by omega)]

/-- Where no call changes or loads the entry while another has something left to write, a
restart between calls resumes the same point. -/
theorem restart_resumes (faithful : ∀ q, Codec.parseFloat (Codec.formatFloat q) = some (.finite q))
    {store : Str → Option Str} {clock : Time} {pool : Pool calls Unit Node}
    (reached : Pool.ReachesIf (keyed o key band) (Writer.note key) {} InTurn { shared := booted store clock } pool)
    (quiet : pool.running = []) {st : MXState} (found : pool.shared.memory.state key = some st) {domain : Str}
    {tr : Trace calls} {ref : Nat} {s' : Node}
    (reload : Runs (banded o key band) (stateFor key domain) (pool.shared.drop [key]) tr (.done ref) s') :
    ∃ st', s'.memory.state key = some st' ∧ st'.rate = st.rate ∧
      ∀ now : Time, 0 ≤ now.Unix → st'.pauseAt now = st.pauseAt now := by
  have settling := reached_settling faithful reached
  have hands : pool.hands (Writer.note key) {} = [] := by rw [Pool.hands, quiet, List.map_nil]
  rw [hands] at settling
  obtain ⟨-, -, resumes⟩ := settling.entry st found
  have absent : (pool.shared.drop [key]).memory.mx.lookup key = none := AList.lookup_erase key _
  have loads : (stateFor key domain).Ensures (banded o key band) _ (pool.shared.drop [key]) :=
    stateFor_loads (settling.placed.forgetAll [key]) absent
  obtain ⟨st', found', rate, pause⟩ := loads.result reload
  exact ⟨st', found', resumes.reloaded rate pause⟩

end

/-! ## Two answers at once -/

abbrev exactCodec : Codec :=
  { plainCodec with
    parseFloat := fun raw => (readRat raw).map fun found => .finite found.1
    formatFloat := writeRat }

lemma exactCodec_faithful (q : ℚ) : exactCodec.parseFloat (exactCodec.formatFloat q) = some (.finite q) := by
  have back := readRat_writeRat q []
  rw [List.append_nil] at back
  change (readRat (writeRat q)).map _ = _
  rw [back]
  rfl

def Op.loadsAt (key : Str) (band : Band) : Op → Bool
  | .locked (.install key' band' _) => key' ≠ key ∨ band' = band
  | _ => true

lemma banded_runs {A : Type} {p q : Act A} {o : Options} {band : Band} {t : Node} {tr : Trace calls}
    (late : Time.epoch * second ≤ s.clock.nanos)
    (run : Runs (fun s e s' => Serves o false s e s' ∧ s'.clock = s.clock) p s tr q t)
    (loads : (tr.all fun e => e.op.loadsAt key band) = true) : Runs (banded o key band) p s tr q t := by
  refine run.narrowed (fun s => Time.epoch * second ≤ s.clock.nanos) late fun s e s' member late served => ?_
  have kept : Time.epoch * second ≤ s'.clock.nanos := by rwa [served.2]
  refine ⟨kept, served.1, kept, fun band' start same => ?_⟩
  have loads := List.all_eq_true.mp loads e member
  rw [same] at loads
  simpa [Op.loadsAt] using loads

lemma standing_still (o : Options) (s : Node) (op : Op) :
    Serves o false s ⟨op, (standing o s op).1⟩ (standing o s op).2 ∧ (standing o s op).2.clock = s.clock :=
  ⟨standing_serves o false s op, by cases op <;> rfl⟩

abbrev oneKey : Rules calls Unit Node := @keyed asciiTables exactCodec {} (lit "mx.test") conservative

def newcomer : Act Nat := @stateFor asciiTables exactCodec (lit "mx.test") []

def slowDown : Act Unit := @Observe asciiTables exactCodec {} (lit "mx.test") true

lemma slowDown_about : oneKey.job slowDown :=
  @About.observe asciiTables exactCodec {} (lit "mx.test") (lit "mx.test") true (by decide)

-- The key is in use.
def used : Trace calls × Unit × Node :=
  (Functor.discard newcomer).play (standing {}) (booted (fun _ => none) (Time.ofUnix 0))

-- One throttled answer, to its end.
def slowed : Trace calls × Unit × Node := slowDown.play (standing {}) used.2.2

def reloaded (s : Node) : Trace calls × Nat × Node := newcomer.play (standing {}) (s.drop [lit "mx.test"])

lemma standing_runs {A : Type} (p : Act A) (s : Node) (late : Time.epoch * second ≤ s.clock.nanos)
    (loads : ((p.play (standing {}) s).1.all fun e => e.op.loadsAt (lit "mx.test") conservative) = true) :
    Runs (banded {} (lit "mx.test") conservative) p s (p.play (standing {}) s).1 (.done (p.play (standing {}) s).2.1)
      (p.play (standing {}) s).2.2 :=
  banded_runs late (Prog.play_runs (fun s => s) (standing_still {}) p s) loads

def rateIs (s : Node) (rate : ℚ) : Bool := (s.memory.state (lit "mx.test")).any fun st => st.rate = rate

lemma rateIs_some {rate : ℚ} (is : rateIs s rate = true) :
    ∃ st, s.memory.state (lit "mx.test") = some st ∧ st.rate = rate := by
  unfold rateIs at is
  cases found : s.memory.state (lit "mx.test") with
  | none =>
    rw [found] at is
    cases is
  | some st =>
    rw [found] at is
    exact ⟨st, rfl, of_decide_eq_true is⟩

/-- Slowed down to a quarter, it resumes at a quarter. -/
theorem slowed_resumes : ∃ st', (reloaded slowed.2.2).2.2.memory.state (lit "mx.test") = some st' ∧ st'.rate = 1 / 4 := by
  have alone {A : Type} {p q : Act A} {s t : Node} {tr : Trace calls}
      (run : Runs (banded {} (lit "mx.test") conservative) p s tr q t) : Runs (oneKey.minding InTurn []) p s tr q t := by
    refine run.narrowed (fun _ => True) trivial fun s e s' _ _ served => ⟨trivial, served, fun _ => trivial, fun _ => ?_⟩
    unfold InTurn
    split
    · exact fun _ => nofun
    · trivial
  have loads : Pool.ReachesIf oneKey (@Writer.note exactCodec (lit "mx.test")) {} InTurn
      { shared := booted (fun _ => none) (Time.ofUnix 0) } ⟨used.2.2, [], [(used.1, some ())]⟩ :=
    .returns rfl (@About.load asciiTables exactCodec {} (lit "mx.test") [])
      (alone (standing_runs _ _ (by decide) (by decide +kernel)))
  have slows : Pool.ReachesIf oneKey (@Writer.note exactCodec (lit "mx.test")) {} InTurn
      ⟨used.2.2, [], [(used.1, some ())]⟩ ⟨slowed.2.2, [], [(used.1, some ()), (slowed.1, some ())]⟩ :=
    .returns rfl slowDown_about (alone (standing_runs _ _ (by decide +kernel) (by decide +kernel)))
  obtain ⟨st, found, rate⟩ := rateIs_some (show rateIs slowed.2.2 (1 / 4) = true by decide +kernel)
  obtain ⟨st', found', same, -⟩ := @restart_resumes exactCodec {} conservative (lit "mx.test") asciiTables
    exactCodec_faithful _ _ _ (loads.trans slows) rfl st found [] _ _ _
    (standing_runs newcomer _ (by decide +kernel) (by decide +kernel))
  exact ⟨st', found', same.trans rate⟩

-- A first throttled answer is in memory and not yet saved, a second one comes and is.
def heard : Trace calls × Prog calls Unit × Node := slowDown.playFor (standing {}) 1 used.2.2

def overtaken : Trace calls × Unit × Node := slowDown.play (standing {}) heard.2.2

-- Then the first one is saved.
def belated : Trace calls × Unit × Node := heard.2.1.play (standing {}) overtaken.2.2

/-- The working point is an eighth, and after a restart it is a quarter. -/
theorem restart_forgets : ∃ (pool : Pool calls Unit Node) (st : MXState) (s' : Node) (st' : MXState),
    Pool.Reaches oneKey { shared := booted (fun _ => none) (Time.ofUnix 0) } pool ∧ pool.running = [] ∧
    pool.shared.memory.state (lit "mx.test") = some st ∧ st.rate = 1 / 8 ∧
    (∃ tr ref, Runs (banded {} (lit "mx.test") conservative) newcomer (pool.shared.drop [lit "mx.test"]) tr (.done ref) s') ∧
    s'.memory.state (lit "mx.test") = some st' ∧ st'.rate = 1 / 4 := by
  have freely {A : Type} {p q : Act A} {s t : Node} {tr : Trace calls}
      (run : Runs (banded {} (lit "mx.test") conservative) p s tr q t) :
      Runs (fun s e s' => oneKey.world s e s' ∧ ∀ did, oneKey.may s did e s') p s tr q t :=
    run.narrowed (fun _ => True) trivial fun s e s' _ _ served => ⟨trivial, served, fun _ => trivial⟩
  have loads : Pool.Reaches oneKey { shared := booted (fun _ => none) (Time.ofUnix 0) }
      ⟨used.2.2, [], [(used.1, some ())]⟩ :=
    .returns (@About.load asciiTables exactCodec {} (lit "mx.test") [])
      (freely (standing_runs _ _ (by decide) (by decide +kernel)))
  have hears : Pool.Reaches oneKey ⟨used.2.2, [], [(used.1, some ())]⟩
      ⟨heard.2.2, [⟨heard.1, heard.2.1⟩], [(used.1, some ())]⟩ :=
    .starts slowDown_about (freely (banded_runs (by decide +kernel) (Prog.playFor_runs (standing_still {}) 1 _ _)
      (by decide +kernel)))
  have overtakes : Pool.Reaches oneKey ⟨heard.2.2, [⟨heard.1, heard.2.1⟩], [(used.1, some ())]⟩
      ⟨overtaken.2.2, [⟨heard.1, heard.2.1⟩], [(used.1, some ()), (overtaken.1, some ())]⟩ :=
    .returns slowDown_about (freely (standing_runs _ _ (by decide +kernel) (by decide +kernel)))
  have saves : Pool.Reaches oneKey ⟨overtaken.2.2, [⟨heard.1, heard.2.1⟩], [(used.1, some ()), (overtaken.1, some ())]⟩
      ⟨belated.2.2, [⟨heard.1 ++ belated.1, .done ()⟩], [(used.1, some ()), (overtaken.1, some ())]⟩ :=
    Pool.Reaches.alone (freely (standing_runs _ _ (by decide +kernel) (by decide +kernel))) [] [] _ _
  have ends : Pool.Step oneKey ⟨belated.2.2, [] ++ [⟨heard.1 ++ belated.1, .done ()⟩], [(used.1, some ()), (overtaken.1, some ())]⟩
      ⟨belated.2.2, [] ++ [], [(used.1, some ()), (overtaken.1, some ())] ++ [(heard.1 ++ belated.1, some ())]⟩ := .finish
  obtain ⟨st, found, rate⟩ := rateIs_some (show rateIs belated.2.2 (1 / 8) = true by decide +kernel)
  obtain ⟨st', found', rate'⟩ := rateIs_some (show rateIs (reloaded belated.2.2).2.2 (1 / 4) = true by decide +kernel)
  refine ⟨_, st, (reloaded belated.2.2).2.2, st',
    (((loads.trans hears).trans overtakes).trans saves).tail ends, rfl, found, rate,
    ⟨_, _, standing_runs newcomer _ (by decide +kernel) (by decide +kernel)⟩, found', rate'⟩

end EmailVerifier.Pacer
