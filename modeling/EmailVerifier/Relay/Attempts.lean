import EmailVerifier.Relay.Finality

/-! What a message has met by the time it is buried.

Every outcome but a delivery goes through `Retry`, which counts it against the message. A
refusal by our own pacer goes the same way, so it counts like an answer of the other side.
-/

set_option autoImplicit false

namespace EmailVerifier.Relay
open Text Data Semantics

/-- The message a process has read, and what its messages met, each under its id. -/
structure Trial where
  item : Option Item := none
  -- What the message met since it was read.
  met : Nat := 0
  -- No usable MX, no vetted address, no connection, or an answer.
  outcomes : List Str := []
  -- Refusals by the pacer.
  refusals : List Str := []

namespace Trial

def outcome (t : Trial) : Trial :=
  { t with met := t.met + 1, outcomes := (t.item.map Item.id).toList ++ t.outcomes }

def refusal (t : Trial) : Trial :=
  { t with met := t.met + 1, refusals := (t.item.map Item.id).toList ++ t.refusals }

def spent (t : Trial) : List Str := t.outcomes ++ t.refusals

section
variable [Library]

def read (t : Trial) (blob : Str) : Trial :=
  match Library.unmarshal blob with
  | .ok item => { t with item := some item, met := 0 }
  | .error _ => t

def note (t : Trial) : Event calls → Trial
  | ⟨.store (.get _), .ok (some blob)⟩ => t.read blob
  | ⟨.mx _, .error _⟩ => t.outcome
  | ⟨.mx _, .ok []⟩ => t.outcome
  | ⟨.resolve _, .error _⟩ => t.outcome
  | ⟨.resolve _, .ok []⟩ => t.outcome
  | ⟨.dialContext _ _, .error _⟩ => t.outcome
  | ⟨.send _ _, _⟩ => t.outcome
  | ⟨.acquire _ _, .error _⟩ => t.refusal
  | _ => t

/-- A body says no more attempts than its message met, and only who met `n` may bury. -/
def mayDo (n : Int) (t : Trial) (o : Op) : Prop :=
  match o with
  | .store (.set _ blob) => ∀ back, Library.unmarshal blob = .ok back → back.attempts = 0 ∨
      ∃ item, t.item = some item ∧ back.id = item.id ∧ back.attempts ≤ item.attempts + t.met
  | .store (.lpush .dead id) => ∃ item, t.item = some item ∧ item.id = id ∧ n ≤ item.attempts + t.met
  | _ => True

end

end Trial

section
variable [Library] {n : Int} {t : Trial}

abbrev Trying (n : Int) : World calls Trial := World.guarded (fun t e => t.mayDo n e.op) Trial.note

def Trial.At (t : Trial) : Point → Prop
  | .taken item _ => t.item = some item ∧ t.met = 0
  | .undialled item | .tried item _ _ | .failed item | .stored item => t.item = some item ∧ t.met = 1
  | _ => True

lemma Trial.arrow {o : Options} {p p' : Point} {e : Event calls} (patient : n ≤ o.queue.maxAttempts)
    (step : Course o p e p') (here : t.At p) : t.mayDo n e.op ∧ (t.note e).At p' := by
  -- One outcome, or one refusal, of a message that had met nothing.
  have once {item : Item} (fresh : t.item = some item ∧ t.met = 0) : t.item = some item ∧ t.met + 1 = 1 :=
    ⟨fresh.1, congrArg (· + 1) fresh.2⟩
  have stores {item back : Item} {blob : Str} (met : t.item = some item ∧ t.met = 1)
      (decoded : Library.unmarshal blob = .ok back) (same : back.id = item.id)
      (counted : back.attempts = item.attempts + 1) : t.mayDo n (.store (.set item.id blob)) := by
    intro back' decoded'
    rw [decoded] at decoded'
    cases decoded'
    exact .inr ⟨item, met.1, same, by rw [counted, met.2]⟩
  cases step with
  | @aside op a p quiet _ =>
    cases op with
    | store c =>
      cases c with
      | llen _ | zcard => cases a <;> exact ⟨trivial, here⟩
      | _ => cases quiet
    | enforcing | sent _ | queueDepth _ _ _ => exact ⟨trivial, here⟩
    | _ => cases quiet
  | @fetched id blob item decoded =>
    refine ⟨trivial, ?_⟩
    change (t.read blob).At _
    rw [Trial.read, decoded]
    exact ⟨rfl, rfl⟩
  | unmailed | hostless | unpaid | unresolved | addressless | undialled | sent => exact ⟨trivial, once here⟩
  | fresh | allowed | hosted | paid | resolved | dialled | slowed | undelivered | later => exact ⟨trivial, here⟩
  | unkept decoded same counted => exact ⟨stores here decoded same counted, trivial⟩
  | kept decoded same counted => exact ⟨stores here decoded same counted, here⟩
  | @buried item a enough =>
    refine ⟨⟨item, here.1, rfl, ?_⟩, trivial⟩
    rw [here.2]
    exact patient.trans enough
  | _ => exact ⟨trivial, trivial⟩

lemma DeliverNext_trying [Unicode] {o : Options} (patient : n ≤ o.queue.maxAttempts) :
    o.DeliverNext.Follows (Trying n) (fun _ _ => True) t := by
  have here : t.At .start := trivial
  refine (DeliverNext_course.simulated (R := fun p t => t.At p) (fun p t e p' here step => ?_) here).mono fun _ _ _ => trivial
  obtain ⟨may, moved⟩ := Trial.arrow patient step here
  exact ⟨_, ⟨may, rfl⟩, moved⟩

lemma Accept_trying [Unicode] {o : Options} {m : Message} : (o.Accept m).Follows (Trying n) (fun _ _ => True) t := by
  refine (Accept_intake.simulated (R := fun _ _ => True) (fun d t e d' _ step => ⟨t.note e, ⟨?_, rfl⟩, trivial⟩)
    trivial).mono fun _ _ _ => trivial
  cases step with
  | @inquires id op a inquiry =>
    cases op with
    | store c => cases inquiry
    | _ => trivial
  | unstored entry | stored entry =>
    intro back decoded
    rw [entry.decoded] at decoded
    cases decoded
    exact .inl entry.attempts
  | _ => trivial

def spentOn (trials : List Trial) (id : Str) : Nat := (trials.flatMap Trial.spent).count id

structure Counted (n : Int) (s : Shared) (running gone : List Trial) : Prop where
  bodies : ∀ key blob item, s.store.bodies.lookup key = some blob → Library.unmarshal blob = .ok item →
    item.attempts ≤ spentOn (running ++ gone) item.id
  held : ∀ t ∈ running, ∀ item, t.item = some item → item.attempts + t.met ≤ spentOn (running ++ gone) item.id
  dead : ∀ id ∈ s.store.dead, n ≤ spentOn (running ++ gone) id

variable {s s' : Shared} {e : Event calls} {before after gone : List Trial}

/-- An event counts once for the message in hand, or brings another one, or is nothing to it. -/
lemma Trial.note_cases (t : Trial) (e : Event calls) : t.note e = t ∨
    ((t.note e).item = t.item ∧ (t.note e).met = t.met + 1 ∧
      ∀ id, (t.note e).spent.count id = (t.item.map Item.id).toList.count id + t.spent.count id) ∨
    ∃ key blob item, e = ⟨.store (.get key), .ok (some blob)⟩ ∧ Library.unmarshal blob = .ok item ∧
      t.note e = { t with item := some item, met := 0 } := by
  have outcome (id : Str) : t.outcome.spent.count id = (t.item.map Item.id).toList.count id + t.spent.count id := by
    simp only [Trial.spent, Trial.outcome, List.count_append]
    omega
  have refusal (id : Str) : t.refusal.spent.count id = (t.item.map Item.id).toList.count id + t.spent.count id := by
    simp only [Trial.spent, Trial.refusal, List.count_append]
    omega
  unfold Trial.note
  split
  · rename_i key blob
    cases decoded : Library.unmarshal blob with
    | error _ => exact .inl (by unfold Trial.read; rw [decoded])
    | ok item => exact .inr (.inr ⟨key, blob, item, rfl, decoded, by unfold Trial.read; rw [decoded]⟩)
  all_goals first
    | exact .inr (.inl ⟨rfl, rfl, outcome⟩)
    | exact .inr (.inl ⟨rfl, rfl, refusal⟩)
    | exact .inl rfl

lemma Trial.note_spent (t : Trial) (e : Event calls) (id : Str) : t.spent.count id ≤ (t.note e).spent.count id := by
  rcases t.note_cases e with same | ⟨-, -, more⟩ | ⟨_, _, _, -, -, same⟩
  · rw [same]
  · rw [more]
    exact Nat.le_add_left _ _
  · rw [same]
    exact Nat.le_refl _

/-- The message in hand was read just now, or has met what was noted of it. -/
lemma Trial.note_item {item : Item} (reads : (t.note e).item = some item) :
    (t.item = some item ∧ (t.note e).met + t.spent.count item.id ≤ t.met + (t.note e).spent.count item.id) ∨
      ((t.note e).met = 0 ∧ ∃ key blob, e = ⟨.store (.get key), .ok (some blob)⟩ ∧ Library.unmarshal blob = .ok item) := by
  rcases t.note_cases e with same | ⟨kept, met, more⟩ | ⟨key, blob, _, read, decoded, same⟩
  · rw [same] at reads ⊢
    exact .inl ⟨reads, Nat.le_refl _⟩
  · rw [kept] at reads
    refine .inl ⟨reads, ?_⟩
    rw [met, more, reads]
    simp
    omega
  · rw [same] at reads ⊢
    cases reads
    exact .inr ⟨rfl, key, blob, read, decoded⟩

omit [Library] in
lemma Serve.mem_bodies (served : Serve s e s') {key blob : Str} (there : s'.store.bodies.lookup key = some blob) :
    s.store.bodies.lookup key = some blob ∨ e.op = .store (.set key blob) := by
  cases served with
  | done _ c | unheard _ c _ => exact (lookup_run _ c there).imp_right fun same => by rw [same]
  | _ => exact .inl there

omit [Library] in
lemma mem_dead_run (s : Store) (c : Cmd) {id : Str} (there : id ∈ (c.run s).2.dead) :
    id ∈ s.dead ∨ c = .lpush .dead id := by
  cases c with
  | lpush key new =>
    cases key with
    | ready => exact .inl there
    | dead => exact (List.mem_cons.mp there).symm.imp_right fun same => by rw [same]
  | llen key => cases key <;> exact .inl there
  | _ => exact .inl there

omit [Library] in
lemma Serve.mem_dead (served : Serve s e s') {id : Str} (there : id ∈ s'.store.dead) :
    id ∈ s.store.dead ∨ e.op = .store (.lpush .dead id) := by
  cases served with
  | done _ c | unheard _ c _ => exact (mem_dead_run _ c there).imp_right fun same => by rw [same]
  | _ => exact .inl there

omit [Library] in
lemma Serve.found {key blob : Str} {answer : calls.Answer (.store (.get key))}
    (served : Serve s ⟨.store (.get key), answer⟩ s') (reads : answer = .ok (some blob)) :
    s.store.bodies.lookup key = some blob := by
  cases served with
  | done => exact Except.ok.inj reads
  | lost | unheard => cases reads
  | other _ _ elsewhere => cases elsewhere

omit [Library] in
lemma spentOn_split (before after gone : List Trial) (t : Trial) (id : Str) :
    spentOn (before ++ t :: after ++ gone) id = t.spent.count id + spentOn (before ++ after ++ gone) id := by
  simp only [spentOn, List.flatMap_append, List.flatMap_cons, List.count_append]
  omega

lemma Counted.act (counted : Counted n s (before ++ t :: after) gone) (may : t.mayDo n e.op) (served : Serve s e s') :
    Counted n s' (before ++ t.note e :: after) gone := by
  have here : t ∈ before ++ t :: after := mem_here
  have grows (id : Str) : spentOn (before ++ t :: after ++ gone) id ≤ spentOn (before ++ t.note e :: after ++ gone) id := by
    rw [spentOn_split, spentOn_split]
    exact Nat.add_le_add_right (t.note_spent e id) _
  refine ⟨fun key blob item there decoded => ?_, fun h member item reads => ?_, fun id there => ?_⟩
  · rcases served.mem_bodies there with old | sets
    · exact (counted.bodies key blob item old decoded).trans (grows _)
    · rw [sets] at may
      rcases may item decoded with new | ⟨held, reads, same, few⟩
      · omega
      · have known := counted.held t here held reads
        rw [same]
        exact (few.trans known).trans (grows _)
  · rcases mem_exchanged t member with rfl | old
    · rcases Trial.note_item reads with ⟨held, met⟩ | ⟨met, key, blob, rfl, decoded⟩
      · have known := counted.held t here item held
        rw [spentOn_split] at known ⊢
        omega
      · have known := counted.bodies key blob item (served.found rfl) decoded
        rw [met]
        exact known.trans (grows _)
    · exact (counted.held h old item reads).trans (grows _)
  · have enough : n ≤ spentOn (before ++ t :: after ++ gone) id := by
      rcases served.mem_dead there with old | buries
      · exact counted.dead id old
      · rw [buries] at may
        obtain ⟨item, reads, rfl, enough⟩ := may
        have known := counted.held t here item reads
        omega
    have := grows id
    omega

lemma Counted.regroup {running running' gone' : List Trial} (counted : Counted n s running gone)
    (same : ∀ id, spentOn (running' ++ gone') id = spentOn (running ++ gone) id)
    (known : ∀ t ∈ running', t ∈ running ∨ t.item = none) : Counted n s running' gone' := by
  refine ⟨fun key blob item => ?_, fun h member item reads => ?_, fun id => ?_⟩
  · rw [same]
    exact counted.bodies key blob item
  · rw [same]
    rcases known h member with old | empty
    · exact counted.held h old item reads
    · cases empty.symm.trans reads
  · rw [same]
    exact counted.dead id

lemma Counted.join {running : List Trial} (counted : Counted n s running gone) :
    Counted n s (running ++ [({} : Trial)]) gone := by
  refine counted.regroup (fun id => ?_) fun h member => ?_
  · rw [spentOn_split, List.append_nil]
    exact Nat.zero_add _
  · exact (List.mem_append.mp member).imp_right fun new => by rw [List.mem_singleton.mp new]

lemma Counted.leave (counted : Counted n s (before ++ t :: after) gone) : Counted n s (before ++ after) (gone ++ [t]) := by
  refine counted.regroup (fun id => ?_) fun h member => .inl (mem_stays member)
  simp only [spentOn, List.flatMap_append, List.flatMap_cons, List.flatMap_nil, List.count_append, List.append_nil]
  omega

/-- The relays of a domain that allow `n` attempts at least. -/
def patientRelays [Unicode] (domain : Str) (n : Int) : Rules calls Returned Shared :=
  { relays domain with
    job := fun p => ∃ o : Options, o.domain = domain ∧ n ≤ o.queue.maxAttempts ∧ (p = draining o ∨ ∃ m, p = taking o m) }

lemma relays_counted [Unicode] (domain : Str) (n : Int) :
    Keeping (patientRelays domain n) (fun t e => t.mayDo n e.op) Trial.note {} (fun _ _ _ _ _ => True) (fun _ _ => True)
      (Counted n) where
  join _ _ _ := .join
  act _ _ _ _ _ _ _ counted may served _ := counted.act may served
  leave _ _ _ _ _ counted _ := counted.leave
  drift pool s' running gone ticks counted := by
    obtain ⟨clock, rfl⟩ := ticks
    exact ⟨counted.bodies, counted.held, counted.dead⟩

def outcomesOf (pool : Relays) (id : Str) : Nat :=
  (pool.traces.flatMap fun did => (did.foldl Trial.note {}).outcomes).count id

def refusalsOf (pool : Relays) (id : Str) : Nat :=
  (pool.traces.flatMap fun did => (did.foldl Trial.note {}).refusals).count id

omit [Library] in
lemma count_spent {B : Type} (l : List B) (f : B → Trial) (id : Str) : ((l.map f).flatMap Trial.spent).count id =
    (l.flatMap fun b => (f b).outcomes).count id + (l.flatMap fun b => (f b).refusals).count id := by
  induction l with
  | nil => rfl
  | cons b more ih =>
    simp only [List.map_cons, List.flatMap_cons, List.count_append, ih, Trial.spent]
    omega

def pacerRefuses : Event calls → Bool
  | ⟨.acquire _ _, .error _⟩ => true
  | _ => false

lemma Trial.note_refusals (t : Trial) {e : Event calls} (granted : pacerRefuses e = false) :
    (t.note e).refusals = t.refusals := by
  unfold Trial.note
  split
  · unfold Trial.read
    split <;> rfl
  all_goals first
    | rfl
    | cases granted

lemma refusals_nil {did : Trace calls} (granted : ∀ e ∈ did, pacerRefuses e = false) (t : Trial) :
    (did.foldl Trial.note t).refusals = t.refusals := by
  induction did generalizing t with
  | nil => rfl
  | cons e more ih =>
    rw [List.forall_mem_cons] at granted
    exact (ih granted.2 _).trans (t.note_refusals granted.1)

/-- A buried message has met as much as the attempts allowed, refusals by the pacer counted in. In
a run where the pacer refuses nobody, all of it was about its domain or server. -/
theorem buried_met_enough [Unicode] {domain : Str} {pool : Relays}
    (reached : Pool.Reaches (patientRelays domain n) empty pool) {id : Str} (buried : id ∈ pool.shared.store.dead) :
    n ≤ outcomesOf pool id + refusalsOf pool id ∧
      ((∀ did ∈ pool.traces, ∀ e ∈ did, pacerRefuses e = false) → n ≤ outcomesOf pool id) := by
  have jobs (p : Act Returned) (job : (patientRelays domain n).job p) : p.Follows (Trying n) (fun _ _ => True) {} := by
    obtain ⟨o, -, patient, rfl | ⟨m, rfl⟩⟩ := job
    · exact (DeliverNext_trying patient).andThen fun _ _ _ => trivial
    · exact Accept_trying.andThen fun _ _ _ => trivial
  have start : Counted n {} [] [] := ⟨nofun, nofun, nofun⟩
  obtain ⟨-, counted⟩ := (relays_counted domain n).reached jobs empty_orderly start
    (reached.freely fun _ _ _ _ _ => trivial)
  have enough : n ≤ outcomesOf pool id + refusalsOf pool id := by
    have all : pool.hands Trial.note {} ++ pool.left Trial.note {} = pool.traces.map (List.foldl Trial.note {}) := by
      simp [Pool.traces, Pool.hands, Pool.left, Function.comp_def]
    have met := counted.dead id buried
    rw [spentOn, all, count_spent] at met
    exact_mod_cast met
  refine ⟨enough, fun granted => ?_⟩
  have none : refusalsOf pool id = 0 := by
    refine List.count_eq_zero.mpr fun member => ?_
    obtain ⟨did, there, refused⟩ := List.mem_flatMap.mp member
    rw [refusals_nil (granted did there)] at refused
    cases refused
  omega

end

theorem buriedOnce_met : oneID ∈ buriedOnce.shared.store.dead ∧ 1 ≤ outcomesOf buriedOnce oneID := by
  have admits (s : Shared) (o : Op) : Serve s ⟨o, (refusing s o).1⟩ (refusing s o).2 ∧ ∀ _ : Trace calls, True :=
    ⟨refusing_serves s o, fun _ => trivial⟩
  have accepted : Pool.Reaches (patientRelays (lit "node.test") 1) empty acceptedOnce :=
    .returns ⟨onceOnly, rfl, by decide, .inr ⟨oneMessage, rfl⟩⟩
      (Prog.play_runs (fun s : Shared => s) admits (taking onceOnly oneMessage) {})
  have refused : Pool.Reaches (patientRelays (lit "node.test") 1) acceptedOnce buriedOnce :=
    .returns ⟨onceOnly, rfl, by decide, .inl rfl⟩
      (Prog.play_runs (fun s : Shared => s) admits (draining onceOnly) acceptedOnce.shared)
  have buried : oneID ∈ buriedOnce.shared.store.dead := by decide +kernel
  have granted : ∀ did ∈ buriedOnce.traces, ∀ e ∈ did, pacerRefuses e = false := by decide +kernel
  have met := (buried_met_enough (accepted.trans refused) buried).2 granted
  exact ⟨buried, by exact_mod_cast met⟩

-- The bucket cannot be reached.
def bucketless : Player calls Shared := fun s o =>
  match o with
  | .acquire _ _ => (.error (errorsNew "redis: connection refused"), s)
  | o => redis s o

lemma bucketless_serves (s : Shared) (o : Op) : Serve s ⟨o, (bucketless s o).1⟩ (bucketless s o).2 := by
  cases o with
  | acquire _ _ => exact .other s _ rfl
  | _ => exact redis_serves s _

-- A drainer a day, over a message that was accepted.
def starved : Nat → Relays
  | 0 => acceptedOne
  | days + 1 =>
    let pool := starved days
    let run := (draining oneRelay).play bucketless { pool.shared with clock := pool.shared.clock + 86400 * second }
    { shared := run.2.2, running := pool.running, gone := pool.gone ++ [(run.1, some run.2.1)] }

lemma starved_reached (days : Nat) : Pool.Reaches (patientRelays (lit "node.test") 5) empty (starved days) := by
  induction days with
  | zero =>
    exact acceptedOne_reached ⟨oneRelay, rfl, by decide, .inr ⟨oneMessage, rfl⟩⟩ fun s o => ⟨redis_serves s o, fun _ => trivial⟩
  | succ days ih =>
    refine ih.trans (.head (.drift ⟨(starved days).shared.clock + 86400 * second, rfl⟩) ?_)
    exact Pool.Reaches.returns ⟨oneRelay, rfl, by decide, .inl rfl⟩
      (Prog.play_runs (fun s : Shared => s) (fun s o => ⟨bucketless_serves s o, fun _ => trivial⟩) (draining oneRelay) _)

/-- Five refusals by the pacer bury a message that was never offered. -/
theorem never_offered_buried : Pool.Reaches (patientRelays (lit "node.test") 5) empty (starved 5) ∧
    oneID ∈ (starved 5).shared.store.dead ∧ outcomesOf (starved 5) oneID = 0 ∧ refusalsOf (starved 5) oneID = 5 :=
  ⟨starved_reached 5, by decide +kernel, by decide +kernel, by decide +kernel⟩

end EmailVerifier.Relay
