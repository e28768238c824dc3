import EmailVerifier.Relay.Durability

/-! What becomes of a message that may not be sent right now.

A stale list, an unreadable one and a list that has the recipient come back from
`suppressionAllows` as an error alike, and `DeliverNext` deletes the message for each of
them.
-/

set_option autoImplicit false

namespace EmailVerifier.Relay
open Text Data Semantics

/-- One call of `DeliverNext` as seen from outside. -/
structure Sight where
  -- The message that was taken from the queue.
  item : Option Item := none
  -- The list was found not to be stale.
  fresh : Bool := false
  -- The address that was found on the list.
  found : Option Str := none
  -- The list was stale or could not be read.
  refused : Bool := false
  -- The IP is listed, or sending is paused.
  unwell : Bool := false
  delivered : Bool := false
  deleted : Option Str := none
  -- Some command was sent to the store.
  touched : Bool := false
  deriving DecidableEq

structure Judged (m : Sight) : Prop where
  deleted : ∀ id, m.deleted = some id → ∃ item, m.item = some item ∧ item.id = id ∧
    (m.delivered = true ∨ (m.fresh = true ∧ m.found = some item.rcptTo) ∨ m.refused = true)
  refused : m.refused = true → m.deleted ≠ none ∧ m.delivered = false ∧ m.found = none
  unwell : m.unwell = true → m.touched = false

section
variable [Library]

def Sight.note (m : Sight) : Event calls → Sight
  | ⟨.store (.get _), .ok (some blob)⟩ => { m with item := (Library.unmarshal blob).toOption, touched := true }
  | ⟨.store (.del id), _⟩ => { m with deleted := some id, touched := true }
  | ⟨.store _, _⟩ => { m with touched := true }
  | ⟨.burned, (true, _)⟩ => { m with unwell := true }
  | ⟨.sendingPaused, (true, _)⟩ => { m with unwell := true }
  | ⟨.stale, true⟩ => { m with refused := true }
  | ⟨.stale, false⟩ => { m with fresh := true }
  | ⟨.suppressed _, .error _⟩ => { m with refused := true }
  | ⟨.suppressed addr, .ok (true, _)⟩ => { m with found := some addr }
  | ⟨.send _ _, out⟩ => { m with delivered := out.delivered }
  | _ => m

def sightOf (tr : Trace calls) : Sight := tr.foldl Sight.note {}

abbrev Watching : World calls Sight := World.noting Sight.note

/-- The queue is left alone by a call that must not send: the message it deletes was
delivered or is on a list that is fresh and readable, a message it may not send is still
listed with the attempts it had, and a call that may send nothing at all sends no command. -/
structure Untouched (m : Sight) (after : Store) : Prop where
  deleted : ∀ id, m.deleted = some id → ∃ item, m.item = some item ∧ item.id = id ∧
    (m.delivered = true ∨ (m.fresh = true ∧ m.found = some item.rcptTo))
  refused : m.refused = true → ∃ item, m.item = some item ∧ after.Listed item.id ∧
    ∃ blob back, after.bodies.lookup item.id = some blob ∧ Library.unmarshal blob = .ok back ∧
      back.attempts = item.attempts
  unwell : m.unwell = true → m.touched = false

lemma Judged.untouched_iff {m : Sight} (judged : Judged m) (after : Store) : Untouched m after ↔ m.refused = false := by
  constructor
  · intro untouched
    by_contra refused
    obtain ⟨some, delivered, found⟩ := judged.refused (by simpa using refused)
    obtain ⟨id, deleted⟩ := Option.ne_none_iff_exists'.mp some
    obtain ⟨item, -, -, fine | ⟨-, fine⟩⟩ := untouched.deleted id deleted
    · rw [delivered] at fine
      cases fine
    · rw [found] at fine
      cases fine
  · intro fair
    refine ⟨fun id deleted => ?_, fun refused => ?_, judged.unwell⟩
    · obtain ⟨item, taken, same, delivered | found | refused⟩ := judged.deleted id deleted
      · exact ⟨item, taken, same, .inl delivered⟩
      · exact ⟨item, taken, same, .inr found⟩
      · rw [fair] at refused
        cases refused
    · rw [fair] at refused
      cases refused

end

structure Sight.Calm (m : Sight) : Prop where
  deleted : m.deleted = none
  refused : m.refused = false
  unwell : m.unwell = false

lemma Sight.Calm.judged {m : Sight} (calm : m.Calm) : Judged m := by
  refine ⟨fun id deleted => ?_, fun refused => ?_, fun unwell => ?_⟩
  · rw [calm.deleted] at deleted
    cases deleted
  · rw [calm.refused] at refused
    cases refused
  · rw [calm.unwell] at unwell
    cases unwell

/-- The same but for `touched`. -/
def Sight.Like (m m' : Sight) : Prop := m' = { m with touched := m'.touched }

lemma Sight.Like.trans {m m' m'' : Sight} (first : m.Like m') (second : m'.Like m'') : m.Like m'' := by
  rw [Sight.Like] at second ⊢
  rw [second, first]

lemma Sight.Like.calm {m m' : Sight} (like : m.Like m') (calm : m.Calm) : m'.Calm := by
  rw [like]
  exact ⟨calm.deleted, calm.refused, calm.unwell⟩

section
variable [Library]

def Sight.At (m : Sight) : Point → Prop
  | .start => m = {}
  | .timed _ | .promoting _ | .moving _ _ | .popped _ => Sight.Like {} m
  | .taken item fresh => Sight.Like { item := some item, fresh } m
  | .tried item _ out => m.Calm ∧ m.item = some item ∧ m.delivered = out.delivered
  | .undialled _ | .failed _ | .stored _ => m.Calm
  | .settled item _ => Judged { m with deleted := some item.id, touched := true }
  | .over => Judged m

lemma Sight.note_aside (m : Sight) {op : Op} (aside : op.aside = true) (a : op.Answer) : m.Like (m.note ⟨op, a⟩) := by
  cases op with
  | store c =>
    cases c with
    | llen _ | zcard => rfl
    | _ => cases aside
  | enforcing | sent _ | queueDepth _ _ _ => rfl
  | _ => cases aside

omit [Library] in
-- Stale, or not readable: the message is deleted all the same.
lemma refused_judged (item : Item) (fresh : Bool) :
    Judged { item := some item, fresh, refused := true, deleted := some item.id, touched := true } := by
  refine ⟨fun id deleted => ?_, fun _ => ⟨nofun, rfl, rfl⟩, nofun⟩
  cases deleted
  exact ⟨item, rfl, rfl, .inr (.inr rfl)⟩

lemma Sight.arrow {m : Sight} {o : Options} {p p' : Point} {e : Event calls} (step : Course o p e p')
    (here : m.At p) : (m.note e).At p' := by
  have seen {m' : Sight} (calm : m.Calm) (same : m'.deleted = m.deleted ∧ m'.refused = m.refused ∧ m'.unwell = m.unwell) :
      Judged m' := Sight.Calm.judged
    ⟨same.1.trans calm.deleted, same.2.1.trans calm.refused, same.2.2.trans calm.unwell⟩
  cases step with
  | @aside op a p quiet held =>
    have like := m.note_aside quiet a
    cases p with
    | taken item fresh => exact Sight.Like.trans here like
    | failed item => exact like.calm here
    | settled item why =>
      rw [like]
      exact here
    | _ => cases held
  | listed | paused =>
    rw [show m = {} from here]
    exact ⟨nofun, nofun, fun _ => rfl⟩
  | clock =>
    rw [show m = {} from here]
    rfl
  | unread | unremoved | unpushed | unpopped | empty | nameless | unfetched | bodiless | garbled _ =>
    exact seen (here.calm ⟨rfl, rfl, rfl⟩) ⟨rfl, rfl, rfl⟩
  | due | gone | removed _ | pushed | popped _ => exact Sight.Like.trans here rfl
  | @fetched id blob item decoded =>
    change Sight.Like { item := some item } { m with item := (Library.unmarshal blob).toOption, touched := true }
    rw [decoded, here]
    rfl
  | @stale item =>
    rw [here]
    exact refused_judged item false
  | fresh =>
    rw [here]
    rfl
  | @unreadable item =>
    rw [here]
    exact refused_judged item true
  | @suppressed item =>
    rw [here]
    refine ⟨fun id deleted => ?_, nofun, nofun⟩
    cases deleted
    exact ⟨item, rfl, rfl, .inr (.inl ⟨rfl, rfl⟩)⟩
  | unmailed | hostless | unpaid | unresolved | addressless | undialled => exact here.calm ⟨rfl, rfl, rfl⟩
  | sent =>
    rw [here]
    exact ⟨⟨rfl, rfl, rfl⟩, rfl, rfl⟩
  | @delivered item host out done =>
    obtain ⟨calm, taken, same⟩ := here
    refine ⟨fun id deleted => ?_, fun refused => ?_, fun unwell => ?_⟩
    · cases deleted
      exact ⟨item, taken, rfl, .inl (same.trans done)⟩
    · exact absurd (calm.refused.symm.trans refused) Bool.false_ne_true
    · exact absurd (calm.unwell.symm.trans unwell) Bool.false_ne_true
  | undelivered => exact here.1
  | unkept | buried | scheduled => exact seen here ⟨rfl, rfl, rfl⟩
  | kept => exact ⟨here.deleted, here.refused, here.unwell⟩
  | _ => exact here

lemma DeliverNext_watched [Unicode] (o : Options) : o.DeliverNext.Follows Watching (fun _ m' => Judged m') {} := by
  refine (DeliverNext_course.simulated (R := fun p m => m.At p) (fun p m e p' here step => ?_) rfl).mono ?_
  · exact ⟨_, rfl, m.arrow step here⟩
  · rintro _ m ⟨_, judged, rfl⟩
    exact judged

/-- A call of `DeliverNext` that has ended left the queue untouched, in the sense above,
exactly when the list was neither stale nor unreadable when it was asked. -/
theorem DeliverNext_untouched_iff [Unicode] {o : Options} {s t : Shared} {tr : Trace calls}
    {result : Bool × Except Err Unit} (run : Runs Serve o.DeliverNext s tr (.done result) t) :
    Untouched (sightOf tr) t.store ↔ (sightOf tr).refused = false := by
  obtain ⟨m, path, judged⟩ := (DeliverNext_watched o).path run
  rw [path.noted] at judged
  exact Judged.untouched_iff judged t.store

end

-- The list is out of date when the message is about to go out.
def outdated : Player calls Shared := fun s o =>
  match o with
  | .stale => (true, s)
  | o => redis s o

lemma outdated_serves (s : Shared) (o : Op) : Serve s ⟨o, (outdated s o).1⟩ (outdated s o).2 := by
  cases o with
  | stale => exact .other s _ rfl
  | _ => exact redis_serves s _

/-- A message that goes out. -/
theorem delivered_untouched : ∃ tr result t, Runs Serve oneRelay.DeliverNext acceptedOne.shared tr (.done result) t ∧
    Untouched (sightOf tr) t.store := by
  have run := Prog.play_runs (W := Serve) (fun s : Shared => s) redis_serves oneRelay.DeliverNext acceptedOne.shared
  have fair : (sightOf (oneRelay.DeliverNext.play redis acceptedOne.shared).1).refused = false := by decide +kernel
  exact ⟨_, _, _, run, (DeliverNext_untouched_iff run).mpr fair⟩

/-- A stale list costs the message its place in the queue and its body. -/
theorem stale_list_deletes : ∃ tr result t, Runs Serve oneRelay.DeliverNext acceptedOne.shared tr (.done result) t ∧
    (sightOf tr).deleted = some oneID ∧ (sightOf tr).delivered = false ∧ (sightOf tr).fresh = false ∧
    ¬ t.store.Listed oneID ∧ oneID ∉ t.store.bodies := by
  have run := Prog.play_runs (W := Serve) (fun s : Shared => s) outdated_serves oneRelay.DeliverNext acceptedOne.shared
  exact ⟨_, _, _, run, by decide +kernel⟩

end EmailVerifier.Relay
