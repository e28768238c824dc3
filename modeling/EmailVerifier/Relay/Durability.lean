import EmailVerifier.Relay.Hand
import EmailVerifier.Semantics.Hands

/-! What becomes of an accepted message.

As long as nothing goes wrong while an id is in hand, every accepted message is settled,
listed with its body stored, or held by a running drainer. One crash after `RPOP` is
enough to lose one: nothing lists the id any more and nobody has it.
-/

set_option autoImplicit false

namespace EmailVerifier.Relay
open Text Data Semantics

def Store.Listed (s : Store) (id : Str) : Prop := id ∈ s.ready ∨ id ∈ s.later.map Prod.snd ∨ id ∈ s.dead

instance (s : Store) (id : Str) : Decidable (s.Listed id) :=
  inferInstanceAs (Decidable (id ∈ s.ready ∨ id ∈ s.later.map Prod.snd ∨ id ∈ s.dead))

lemma mem_schedule (entry e : Int × Str) (l : List (Int × Str)) : e ∈ schedule entry l ↔ e = entry ∨ e ∈ l := by
  induction l with
  | nil => simp [schedule]
  | cons first more ih =>
    unfold schedule
    split
    · simp
    · simp only [List.mem_cons, ih]
      tauto

lemma listed_zadd (s : Store) (due : Int) (new id : Str) (listed : s.Listed id) :
    ((Cmd.zadd due new).run s).2.Listed id := by
  rcases listed with ready | later | dead
  · exact .inl ready
  · obtain ⟨e, member, rfl⟩ := List.mem_map.mp later
    refine .inr (.inl (List.mem_map.mpr ?_))
    by_cases same : e.2 = new
    · exact ⟨(due, new), (mem_schedule _ _ _).mpr (.inl rfl), same.symm⟩
    · exact ⟨e, (mem_schedule _ _ _).mpr (.inr (List.mem_filter.mpr ⟨member, by simpa using same⟩)), rfl⟩
  · exact .inr (.inr dead)

lemma zadd_listed (s : Store) (due : Int) (new : Str) : ((Cmd.zadd due new).run s).2.Listed new :=
  .inr (.inl (List.mem_map.mpr ⟨(due, new), (mem_schedule _ _ _).mpr (.inl rfl), rfl⟩))

lemma listed_zrem (s : Store) (gone id : Str) (listed : s.Listed id) :
    ((Cmd.zrem gone).run s).2.Listed id ∨ (id = gone ∧ ((Cmd.zrem gone).run s).1 = (1 : Int)) := by
  rcases listed with ready | later | dead
  · exact .inl (.inl ready)
  · obtain ⟨e, member, rfl⟩ := List.mem_map.mp later
    by_cases same : e.2 = gone
    · have found : (s.later.any fun e => e.2 = gone) = true := List.any_eq_true.mpr ⟨e, member, by simpa using same⟩
      exact .inr ⟨same, if_pos found⟩
    · refine .inl (.inr (.inl (List.mem_map.mpr ⟨e, List.mem_filter.mpr ⟨member, ?_⟩, rfl⟩)))
      simpa using same
  · exact .inl (.inr (.inr dead))

lemma listed_rpop (s : Store) (id : Str) (listed : s.Listed id) :
    (Cmd.rpop.run s).2.Listed id ∨ s.ready.getLast? = some id := by
  rcases listed with ready | later | dead
  · by_cases nonempty : s.ready = []
    · rw [nonempty] at ready
      cases ready
    · rw [← List.dropLast_append_getLast nonempty] at ready
      rcases List.mem_append.mp ready with early | last
      · exact .inl (.inl early)
      · rw [List.mem_singleton.mp last]
        exact .inr (List.getLast?_eq_some_getLast nonempty)
  · exact .inl (.inr (.inl later))
  · exact .inl (.inr (.inr dead))

section
variable [Library]

-- Every stored body decodes to an item with the id it is stored under.
def Store.Sound (s : Store) : Prop := ∀ id blob, s.bodies.lookup id = some blob → Decodes blob id

omit [Library] in
lemma lookup_run (s : Store) (c : Cmd) {id blob : Str} (found : (c.run s).2.bodies.lookup id = some blob) :
    s.bodies.lookup id = some blob ∨ c = .set id blob := by
  cases c with
  | set new body =>
    change (s.bodies.insert new body).lookup id = some blob at found
    rw [Table.lookup_insert_ite] at found
    split at found
    · rename_i same
      cases found
      exact .inr (by rw [same])
    · exact .inl found
  | del gone =>
    change (s.bodies.erase gone).lookup id = some blob at found
    by_cases same : id = gone
    · rw [same, AList.lookup_erase] at found
      cases found
    · rw [AList.lookup_erase_ne same] at found
      exact .inl found
  | lpush key _ | llen key => cases key <;> exact .inl found
  | _ => exact .inl found

variable {h : Hand} {s s' : Store} {gone : List Hand}

lemma Store.Sound.run (sound : s.Sound) (c : Cmd)
    (sets : ∀ id blob, c = .set id blob → Decodes blob id) : (c.run s).2.Sound := by
  intro id blob found
  rcases lookup_run s c found with old | sets'
  · exact sound id blob old
  · exact sets id blob sets'

structure Moves (s : Store) (h : Hand) (s' : Store) (h' : Hand) : Prop where
  calm : h'.troubled = false
  sound : s.Sound → s'.Sound
  bodies : ∀ id, id ∈ s.bodies → id ∈ s'.bodies ∨ id ∈ h.concluded
  listed : ∀ id, id ≠ [] → s.Listed id → s'.Listed id ∨ h'.held = some id
  held : ∀ id, h.held = some id → id ∈ s.bodies → h'.held = some id ∨ s'.Listed id ∨ id ∈ h'.concluded
  concluded : h.concluded ⊆ h'.concluded
  entered : ∀ id ∈ h'.entered, id ∈ h.entered ∨ (id ∈ h.stored ∧ id ≠ [] ∧ s'.Listed id)
  stored : ∀ id ∈ h'.stored, id ∈ h.stored ∨ id ∈ s'.bodies

lemma Moves.still (calm : h.troubled = false) (sound : s.Sound → s'.Sound)
    (bodies : ∀ id, id ∈ s.bodies → id ∈ s'.bodies ∨ id ∈ h.concluded)
    (listed : ∀ id, id ≠ [] → s.Listed id → s'.Listed id) : Moves s h s' h where
  calm := calm
  sound := sound
  bodies := bodies
  listed id named there := .inl (listed id named there)
  held _ held _ := .inl held
  concluded := List.Subset.refl _
  entered _ member := .inl member
  stored _ member := .inl member

lemma Moves.refl (s : Store) (calm : h.troubled = false) : Moves s h s h :=
  .still calm (fun sound => sound) (fun _ => .inl) fun _ _ listed => listed

-- The held id was put on a list.
lemma Moves.put (still : Moves s h s' h)
    (lists : ∀ id, h.held = some id → s'.Listed id) : Moves s h s' { h with held := none } where
  calm := still.calm
  sound := still.sound
  bodies := still.bodies
  listed id named there := (still.listed id named there).elim .inl fun held => .inl (lists id held)
  held id held _ := .inr (.inl (lists id held))
  concluded := still.concluded
  entered := still.entered
  stored := still.stored

-- An id was taken off a list.
lemma Moves.take {taken : Str} (calm : h.troubled = false) (free : h.held = none)
    (same : s'.bodies = s.bodies) (listed : ∀ id, id ≠ [] → s.Listed id → s'.Listed id ∨ id = taken) :
    Moves s h s' { h with held := some taken } where
  calm := calm
  sound sound := by
    unfold Store.Sound
    rw [same]
    exact sound
  bodies id there := .inl (same ▸ there)
  listed id named there := (listed id named there).imp_right fun same => by rw [same]
  held id held := by
    rw [free] at held
    cases held
  concluded := List.Subset.refl _
  entered _ member := .inl member
  stored _ member := .inl member

lemma Moves.settle (s : Store) (calm : h.troubled = false) : Moves s h s h.settle where
  calm := calm
  sound sound := sound
  bodies _ := .inl
  listed _ _ := .inl
  held id held _ := .inr (.inr (by simp [Hand.settle, held]))
  concluded := List.subset_append_right _ _
  entered _ member := .inl member
  stored _ member := .inl member

def Cmd.takes : Cmd → Bool
  | .rpop | .zrem _ => true
  | _ => false

lemma Moves.effect (s : Store) {c : Cmd} (calm : h.troubled = false) (may : h.mayDo (.store c))
    (keeps : c.takes = false) : Moves s h (c.run s).2 h := by
  have may := may calm
  cases c with
  | set id blob =>
    apply Moves.still calm
    · intro sound
      apply sound.run
      rintro id' blob' ⟨⟩
      exact may
    · intro id' there
      exact .inl (AList.mem_insert s.bodies |>.mpr (.inr there))
    · exact fun _ _ listed => listed
  | del id =>
    apply Moves.still calm
    · exact fun sound => sound.run (.del id) nofun
    · intro id' there
      by_cases same : id' = id
      · exact .inr (same ▸ may)
      · exact .inl (AList.mem_erase.mpr ⟨same, there⟩)
    · exact fun _ _ listed => listed
  | lpush key id =>
    cases key with
    | ready =>
      refine .still calm (fun sound => sound) (fun _ => .inl) fun id' _ listed => ?_
      exact listed.imp_left (List.mem_cons_of_mem id)
    | dead =>
      refine .still calm (fun sound => sound) (fun _ => .inl) fun id' _ listed => ?_
      exact listed.imp_right fun listed => listed.imp_right (List.mem_cons_of_mem id)
  | zadd due id => exact .still calm (fun sound => sound) (fun _ => .inl) fun id' _ => listed_zadd s due id id'
  | rpop | zrem _ => cases keeps
  | llen key => cases key <;> exact .refl s calm
  | get _ | zrangeByScore _ | zcard => exact .refl s calm

lemma Moves.replied (s : Store) (c : Cmd) (calm : h.troubled = false) (sound : s.Sound)
    (may : h.mayDo (.store c)) : Moves s h (c.run s).2 (h.replied c (c.run s).1) := by
  have granted := may calm
  cases c with
  | set id blob =>
    have still := Moves.effect s calm may rfl
    exact { still with
      stored := fun id' member => (List.mem_cons.mp member).elim
        (fun same => .inr (AList.mem_insert s.bodies |>.mpr (.inl same))) .inl }
  | get id =>
    -- The body of a held id is there unless the message is settled, and it decodes.
    change Moves s h s (h.replied (.get id) (s.bodies.lookup id))
    cases found : s.bodies.lookup id with
    | none =>
      exact { Moves.refl s calm with
        listed := fun _ _ => .inl
        held := fun id' held there => by
          rw [granted] at held
          cases held
          exact absurd there (AList.lookup_eq_none.mp found) }
    | some blob =>
      have decoded := (decodes_iff blob id).mpr (sound id blob found)
      change Moves s h s (if decodes blob id then h else { h with troubled := true })
      rw [if_pos decoded]
      exact .refl s calm
  | lpush key id =>
    have still := Moves.effect s calm may rfl
    cases key with
    | dead =>
      refine still.put fun id' held => ?_
      rw [granted] at held
      cases held
      exact .inr (.inr List.mem_cons_self)
    | ready =>
      have listed : ((Cmd.lpush .ready id).run s).2.Listed id := .inl List.mem_cons_self
      change Moves s h _
        { h with held := none, entered := if h.held = some id then h.entered else id :: h.entered }
      rcases granted with held | ⟨free, stored, named⟩
      · rw [if_pos held]
        refine still.put fun id' held' => ?_
        rw [held] at held'
        cases held'
        exact listed
      · rw [if_neg (by rw [free]; nofun)]
        exact { still.put (fun id' held => by rw [free] at held; cases held) with
          entered := fun id' member => (List.mem_cons.mp member).elim
            (fun same => .inr (by rw [same]; exact ⟨stored, named, listed⟩)) .inl }
  | zadd due id =>
    refine (Moves.effect s calm may rfl).put fun id' held => ?_
    rw [granted] at held
    cases held
    exact zadd_listed s due id
  | rpop =>
    change Moves s h (Cmd.rpop.run s).2 (h.replied .rpop s.ready.getLast?)
    cases popped : s.ready.getLast? with
    | none =>
      have same : Moves s h (Cmd.rpop.run s).2 h :=
        .still calm (fun sound => sound) (fun _ => .inl) fun id _ listed =>
          (listed_rpop s id listed).resolve_right (by rw [popped]; nofun)
      exact same
    | some id =>
      have listed (id' : Str) (there : s.Listed id') : (Cmd.rpop.run s).2.Listed id' ∨ id' = id :=
        (listed_rpop s id' there).imp_right fun same => by
          rw [popped] at same
          cases same
          rfl
      change Moves s h (Cmd.rpop.run s).2 (if id = [] then h else { h with held := some id })
      split
      · rename_i unnamed
        refine .still calm (fun sound => sound) (fun _ => .inl) fun id' named there => ?_
        exact (listed id' there).resolve_right fun same => named (same.trans unnamed)
      · exact .take calm granted rfl fun id' _ => listed id'
  | zrem id =>
    change Moves s h ((Cmd.zrem id).run s).2
      (if (show Int from ((Cmd.zrem id).run s).1) = 0 then h else { h with held := some id })
    split
    · rename_i untouched
      refine .still calm (fun sound => sound) (fun _ => .inl) fun id' _ there => ?_
      refine (listed_zrem s id id' there).resolve_right fun removed => ?_
      rw [removed.2] at untouched
      cases untouched
    · exact .take calm granted rfl fun id' _ there => (listed_zrem s id id' there).imp_right And.left
  | del _ => exact .effect s calm may rfl
  | llen key => cases key <;> exact .refl s calm
  | zrangeByScore _ | zcard => exact .refl s calm

/-- The condition on a step: no command that an id in hand depends on fails, no command
that takes an id off a list fails after taking it, and the list of the suppressed can be
read and is not stale while an id is in hand. -/
def Careful (s : Shared) (did : Trace calls) (e : Event calls) (s' : Shared) : Prop :=
  match e with
  | ⟨.store c, .error _⟩ => (c.carries = true → (handOf did).held = none) ∧ (c.takes = true → s' = s)
  | ⟨.stale, true⟩ => (handOf did).held = none
  | ⟨.suppressed _, .error _⟩ => (handOf did).held = none
  | _ => True

lemma Moves.of_serve {s s' : Shared} {did : Trace calls} {e : Event calls} (calm : (handOf did).troubled = false)
    (sound : s.store.Sound) (may : (handOf did).mayDo e.op) (careful : Careful s did e s') (served : Serve s e s') :
    Moves s.store (handOf did) s'.store ((handOf did).note e) := by
  -- A failure leaves the hand alone: it concerns no id in hand.
  have untouched (c : Cmd) (free : c.carries = true → (handOf did).held = none) :
      (if c.carries then (handOf did).trouble else handOf did) = handOf did := by
    split
    · rename_i carries
      exact (handOf did).trouble_free (free carries)
    · rfl
  cases served with
  | done _ c => exact .replied s.store c calm sound may
  | lost _ c err =>
    change Moves _ _ _ (if c.carries then (handOf did).trouble else handOf did)
    rw [untouched c careful.1]
    exact .refl s.store calm
  | unheard _ c err =>
    change Moves _ _ _ (if c.carries then (handOf did).trouble else handOf did)
    rw [untouched c careful.1]
    by_cases takes : c.takes = true
    · rw [careful.2 takes]
      exact .refl s.store calm
    · exact .effect s.store calm may (by simpa using takes)
  | time | token | noToken => exact .refl s.store calm
  | other _ _ elsewhere =>
    obtain ⟨o, a⟩ := e
    cases o with
    | store _ | now | randRead _ => cases elsewhere
    | stale =>
      cases a with
      | true =>
        change Moves _ _ _ (handOf did).trouble
        rw [Hand.trouble_free _ careful]
        exact .refl s.store calm
      | false => exact .refl s.store calm
    | suppressed addr =>
      match a with
      | .error err =>
        change Moves _ _ _ (handOf did).trouble
        rw [Hand.trouble_free _ careful]
        exact .refl s.store calm
      | .ok (true, reason) => exact .settle s.store calm
      | .ok (false, reason) => exact .refl s.store calm
    | send conn options =>
      change Moves _ _ _ (if (show Outcome from a).delivered then (handOf did).settle else handOf did)
      split
      · exact .settle s.store calm
      · exact .refl s.store calm
    | _ => exact .refl s.store calm

def Settled (hands : List Hand) (id : Str) : Prop := ∃ h ∈ hands, id ∈ h.concluded

instance (hands : List Hand) (id : Str) : Decidable (Settled hands id) :=
  inferInstanceAs (Decidable (∃ h ∈ hands, id ∈ h.concluded))

structure Safe (s : Store) (running gone : List Hand) : Prop where
  sound : s.Sound
  calm : ∀ h ∈ running, h.troubled = false
  kept : ∀ h ∈ running ++ gone, ∀ id ∈ h.entered, id ≠ [] ∧ (Settled (running ++ gone) id ∨
    (id ∈ s.bodies ∧ (s.Listed id ∨ ∃ h ∈ running, h.held = some id)))
  stored : ∀ h ∈ running ++ gone, ∀ id ∈ h.stored, Settled (running ++ gone) id ∨ id ∈ s.bodies

lemma Safe.act {before after : List Hand} {h' : Hand}
    (safe : Safe s (before ++ h :: after) gone) (moves : Moves s h s' h') : Safe s' (before ++ h' :: after) gone := by
  have settled {id : Str} (old : Settled (before ++ h :: after ++ gone) id) :
      Settled (before ++ h' :: after ++ gone) id := by
    obtain ⟨x, member, concluded⟩ := old
    by_cases same : x = h
    · exact ⟨h', by simp, moves.concluded (same ▸ concluded)⟩
    · refine ⟨x, ?_, concluded⟩
      simp only [List.mem_append, List.mem_cons, same, false_or] at member ⊢
      tauto
  have replaced {x : Hand} {more : List Hand} (member : x ∈ before ++ h' :: after ++ more) :
      x = h' ∨ x ∈ before ++ h :: after ++ more := by
    simp only [List.mem_append, List.mem_cons] at member ⊢
    tauto
  have here {more : List Hand} : h ∈ before ++ h :: after ++ more := by simp
  have body {id : Str} (old : Settled (before ++ h :: after ++ gone) id ∨ id ∈ s.bodies) :
      Settled (before ++ h' :: after ++ gone) id ∨ id ∈ s'.bodies := by
    rcases old with concluded | there
    · exact .inl (settled concluded)
    · rcases moves.bodies id there with there | concluded
      · exact .inr there
      · exact .inl (settled ⟨h, here, concluded⟩)
  -- Where an id stood before the step, it or its end can be found after it.
  have kept {id : Str} (named : id ≠ []) (there : id ∈ s.bodies)
      (placed : s.Listed id ∨ ∃ x ∈ before ++ h :: after, x.held = some id) :
      Settled (before ++ h' :: after ++ gone) id ∨
        (s'.Listed id ∨ ∃ x ∈ before ++ h' :: after, x.held = some id) := by
    rcases placed with listed | ⟨x, member, held⟩
    · rcases moves.listed id named listed with listed | held
      · exact .inr (.inl listed)
      · exact .inr (.inr ⟨h', by simp, held⟩)
    · by_cases same : x = h
      · rcases moves.held id (same ▸ held) there with held | listed | concluded
        · exact .inr (.inr ⟨h', by simp, held⟩)
        · exact .inr (.inl listed)
        · exact .inl ⟨h', by simp, concluded⟩
      · refine .inr (.inr ⟨x, ?_, held⟩)
        simp only [List.mem_append, List.mem_cons, same, false_or] at member ⊢
        tauto
  refine ⟨moves.sound safe.sound, fun x member => ?_, fun x member id entered => ?_, fun x member id stored => ?_⟩
  · rcases mem_exchanged h member with rfl | old
    · exact moves.calm
    · exact safe.calm x old
  · have before_ (y : Hand) (member : y ∈ before ++ h :: after ++ gone) (entered : id ∈ y.entered) :
        id ≠ [] ∧ (Settled (before ++ h' :: after ++ gone) id ∨
          (id ∈ s'.bodies ∧ (s'.Listed id ∨ ∃ x ∈ before ++ h' :: after, x.held = some id))) := by
      obtain ⟨named, old⟩ := safe.kept y member id entered
      refine ⟨named, ?_⟩
      rcases old with concluded | ⟨there, placed⟩
      · exact .inl (settled concluded)
      · rcases body (.inr there), kept named there placed with ⟨concluded | there, concluded | placed⟩
        · exact .inl concluded
        · exact .inl concluded
        · exact .inl concluded
        · exact .inr ⟨there, placed⟩
    rcases replaced member with rfl | old
    · rcases moves.entered id entered with old | ⟨stored, named, listed⟩
      · exact before_ h here old
      · exact ⟨named, (body (safe.stored h here id stored)).imp_right fun there => ⟨there, .inl listed⟩⟩
    · exact before_ x old entered
  · rcases replaced member with rfl | old
    · rcases moves.stored id stored with old | there
      · exact body (safe.stored h here id old)
      · exact .inr there
    · exact body (safe.stored x old id stored)

-- A process with nothing in hand goes.
lemma Safe.leave {before after : List Hand}
    (safe : Safe s (before ++ h :: after) gone) (free : h.held = none) : Safe s (before ++ after) (gone ++ [h]) := by
  have settled {id : Str} (old : Settled (before ++ h :: after ++ gone) id) :
      Settled (before ++ after ++ (gone ++ [h])) id := by
    obtain ⟨x, member, concluded⟩ := old
    exact ⟨x, mem_leaves.mpr member, concluded⟩
  refine ⟨safe.sound, fun x member => ?_, fun x member id entered => ?_, fun x member id stored => ?_⟩
  · exact safe.calm x (mem_stays member)
  · obtain ⟨named, old⟩ := safe.kept x (mem_leaves.mp member) id entered
    refine ⟨named, old.imp settled fun ⟨there, placed⟩ => ⟨there, placed.imp_right ?_⟩⟩
    rintro ⟨y, running, held⟩
    refine ⟨y, ?_, held⟩
    have other : y ≠ h := by
      rintro rfl
      rw [free] at held
      cases held
    simpa [other] using running
  · exact (safe.stored x (mem_leaves.mp member) id stored).imp_left settled

lemma Safe.join {running : List Hand} (safe : Safe s running gone) : Safe s (running ++ [({} : Hand)]) gone := by
  have same {x : Hand} (member : x ∈ running ++ [({} : Hand)] ++ gone) : x = {} ∨ x ∈ running ++ gone := by
    simp only [List.mem_append, List.mem_cons, List.not_mem_nil, or_false] at member ⊢
    tauto
  have settled {id : Str} (old : Settled (running ++ gone) id) : Settled (running ++ [({} : Hand)] ++ gone) id := by
    obtain ⟨x, member, concluded⟩ := old
    refine ⟨x, ?_, concluded⟩
    simp only [List.mem_append] at member ⊢
    tauto
  refine ⟨safe.sound, forall_mem_snoc.mpr ⟨safe.calm, rfl⟩, fun x member id entered => ?_, fun x member id stored => ?_⟩
  · rcases same member with rfl | old
    · cases entered
    · obtain ⟨named, old⟩ := safe.kept x old id entered
      refine ⟨named, old.imp settled fun ⟨there, placed⟩ => ⟨there, placed.imp_right ?_⟩⟩
      exact fun ⟨y, running, held⟩ => ⟨y, List.mem_append_left _ running, held⟩
  · rcases same member with rfl | old
    · cases stored
    · exact (safe.stored x old id stored).imp_left settled

/-- The relays of a domain in runs where nothing goes wrong while an id is in hand. -/
def carefully [Unicode] (domain : Str) : Rules calls Returned Shared :=
  { relays domain with
    may := Careful
    mayCrash := fun _ did => (handOf did).held = none }

def runningHands (pool : Relays) : List Hand := pool.running.map fun proc => handOf proc.did

def goneHands (pool : Relays) : List Hand := pool.gone.map fun left => handOf left.1

-- What a process has in hand when it returns.
def Ended (domain : Str) (result : Returned) (h : Hand) : Prop :=
  h.Clear ∧ ∀ answer, result = .accept answer → h.Accepted domain answer

lemma job_follows [Unicode] {domain : Str} {p : Act Returned} (job : Job domain p) :
    p.Follows Duty (Ended domain) {} := by
  obtain ⟨o, rfl, rfl | ⟨m, rfl⟩⟩ := job
  · apply (DeliverNext_follows rfl).andThen
    exact fun _ _ clear => ⟨clear, nofun⟩
  · apply (Accept_follows rfl).andThen
    intro result h' ended
    refine ⟨ended.1, fun answer same => ?_⟩
    cases same
    exact ended.2

lemma Safe.step [Unicode] {domain : Str} {pool pool' : Relays}
    (orderly : pool.Orderly (fun h e => h.mayDo e.op) Hand.note (Ended domain) {})
    (safe : Safe pool.shared.store (runningHands pool) (goneHands pool))
    (step : Pool.Step (carefully domain) pool pool') :
    Safe pool'.shared.store (runningHands pool') (goneHands pool') := by
  cases step with
  | spawn _ =>
    have joined := safe.join
    simpa [runningHands, goneHands, handOf] using joined
  | @act s s' before after gone did o next a served careful =>
    simp only [runningHands, goneHands, List.map_append, List.map_cons] at safe ⊢
    have moves := Moves.of_serve (safe.calm _ (by simp)) safe.sound (orderly.allows a) careful served
    have acted := safe.act moves
    simpa [handOf] using acted
  | @finish s before after gone did a =>
    simp only [runningHands, goneHands, List.map_append, List.map_cons, List.map_nil] at safe ⊢
    have ended := (orderly.running ⟨did, .done a⟩ (by simp)).1
    refine safe.leave (ended.resolve_left fun troubled => ?_)
    have calm : (handOf did).troubled = false := safe.calm _ (by simp)
    exact absurd (calm.symm.trans troubled) Bool.false_ne_true
  | crash free =>
    simp only [runningHands, goneHands, List.map_append, List.map_cons, List.map_nil] at safe ⊢
    exact safe.leave free
  | drift ticks =>
    obtain ⟨clock, rfl⟩ := ticks
    exact safe

/-- On a list with its body stored, or in the hand of a running process. -/
def Kept (pool : Relays) (id : Str) : Prop :=
  (pool.shared.store.Listed id ∧ id ∈ pool.shared.store.bodies) ∨ ∃ h ∈ runningHands pool, h.held = some id

instance (pool : Relays) (id : Str) : Decidable (Kept pool id) :=
  inferInstanceAs (Decidable ((pool.shared.store.Listed id ∧ id ∈ pool.shared.store.bodies) ∨
    ∃ h ∈ runningHands pool, h.held = some id))

/-- No accepted message is lost in a run where nothing goes wrong while an id is in hand. -/
theorem accepted_kept [Unicode] {domain : Str} {pool : Relays} (reached : Pool.Reaches (carefully domain) empty pool)
    {did : Trace calls} {messageID : Str} (accepted : (did, some (Returned.accept (.ok messageID))) ∈ pool.gone) :
    ∃ id, messageID = id ++ lit "@" ++ domain ∧
      (Settled (runningHands pool ++ goneHands pool) id ∨ Kept pool id) := by
  have start : Safe empty.shared.store (runningHands empty) (goneHands empty) := by
    refine ⟨?_, by simp [runningHands, empty], by simp [runningHands, goneHands, empty],
      by simp [runningHands, goneHands, empty]⟩
    intro id blob found
    cases found
  obtain ⟨orderly, safe⟩ := reached.keeps
    (fun pool => Safe pool.shared.store (runningHands pool) (goneHands pool))
    (fun p job => job_follows job) empty_orderly start
    fun pool pool' orderly safe step => safe.step orderly step
  obtain ⟨id, entered, rfl⟩ := (orderly.returned did _ accepted).2 _ rfl
  have hand : handOf did ∈ runningHands pool ++ goneHands pool :=
    List.mem_append_right _ (List.mem_map.mpr ⟨_, accepted, rfl⟩)
  obtain ⟨-, kept⟩ := safe.kept _ hand id entered
  refine ⟨id, rfl, kept.imp_right ?_⟩
  rintro ⟨there, placed⟩
  exact placed.imp_left fun listed => ⟨listed, there⟩

end

lemma redis_careful (s : Shared) (o : Op) (did : Trace calls) : Careful s did ⟨o, (redis s o).1⟩ (redis s o).2 := by
  cases o <;> trivial

-- The message is accepted; its id is in `relay:ready`.
def acceptedOne : Relays :=
  let run := (taking oneRelay oneMessage).play redis {}
  { shared := run.2.2, gone := [(run.1, some run.2.1)] }

def oneID : Str := base64RawURL (List.replicate 18 7)

lemma acceptedOne_returned : ∃ did, (did, some (.accept (.ok (oneID ++ lit "@" ++ lit "node.test")))) ∈ acceptedOne.gone := by
  have returned : some (.accept (.ok (oneID ++ lit "@" ++ lit "node.test"))) ∈ acceptedOne.gone.map Prod.snd := by
    decide +kernel
  obtain ⟨⟨did, _⟩, member, rfl⟩ := List.mem_map.mp returned
  exact ⟨did, member⟩

-- The accepted message goes out at the first attempt.
def deliveredOne : Relays :=
  let run := (draining oneRelay).play redis acceptedOne.shared
  { shared := run.2.2, gone := acceptedOne.gone ++ [(run.1, some run.2.1)] }

section
variable {r : Rules calls Returned Shared} (job : r.job (taking oneRelay oneMessage))
  (admits : ∀ s o, r.world s ⟨o, (redis s o).1⟩ (redis s o).2 ∧ ∀ did, r.may s did ⟨o, (redis s o).1⟩ (redis s o).2)
include job admits

lemma acceptedOne_reached : Pool.Reaches r empty acceptedOne :=
  Pool.Reaches.returns job (Prog.play_runs (W := fun s e s' => r.world s e s' ∧ ∀ did, r.may s did e s')
    (fun s : Shared => s) admits (taking oneRelay oneMessage) ({} : Shared))

lemma deliveredOne_reached (drain : r.job (draining oneRelay)) : Pool.Reaches r empty deliveredOne :=
  (acceptedOne_reached job admits).trans
    (Pool.Reaches.returns drain (Prog.play_runs (W := fun s e s' => r.world s e s' ∧ ∀ did, r.may s did e s')
      (fun s : Shared => s) admits (draining oneRelay) acceptedOne.shared))

end

lemma redis_admits (s : Shared) (o : Op) : Serve s ⟨o, (redis s o).1⟩ (redis s o).2 ∧ ∀ _ : Trace calls, True :=
  ⟨redis_serves s o, fun _ => trivial⟩

lemma acceptedOne_made : Pool.Reaches (relays (lit "node.test")) empty acceptedOne :=
  acceptedOne_reached ⟨oneRelay, rfl, .inr ⟨oneMessage, rfl⟩⟩ redis_admits

/-- One message accepted and sent with nothing going wrong. -/
theorem deliveredOne_kept : ∃ did, (did, some (.accept (.ok (oneID ++ lit "@" ++ lit "node.test")))) ∈ deliveredOne.gone ∧
    ∃ id, oneID ++ lit "@" ++ lit "node.test" = id ++ lit "@" ++ lit "node.test" ∧
      (Settled (runningHands deliveredOne ++ goneHands deliveredOne) id ∨ Kept deliveredOne id) := by
  have reached : Pool.Reaches (carefully (lit "node.test")) empty deliveredOne :=
    deliveredOne_reached ⟨oneRelay, rfl, .inr ⟨oneMessage, rfl⟩⟩ (fun s o => ⟨redis_serves s o, redis_careful s o⟩)
      ⟨oneRelay, rfl, .inl rfl⟩
  obtain ⟨did, member⟩ := acceptedOne_returned
  exact ⟨did, List.mem_append_left _ member, accepted_kept reached (List.mem_append_left _ member)⟩

-- A drainer asks for the time, finds nothing due, takes the id off the list and dies.
def lostOne : Relays :=
  let cut := (draining oneRelay).playFor redis 3 acceptedOne.shared
  { shared := cut.2.2, gone := acceptedOne.gone ++ [(cut.1, none)] }

/-- A crash right after `RPOP` loses an accepted message: it was neither delivered nor
found suppressed, stands on no list and is in nobody's hand. -/
theorem crash_loses_accepted : Pool.Reaches (relays (lit "node.test")) empty lostOne ∧
    (∃ did, (did, some (.accept (.ok (oneID ++ lit "@" ++ lit "node.test")))) ∈ lostOne.gone) ∧
    ¬ Settled (runningHands lostOne ++ goneHands lostOne) oneID ∧ ¬ Kept lostOne oneID := by
  have died : Pool.Reaches (relays (lit "node.test")) acceptedOne lostOne :=
    Pool.Reaches.dies ⟨oneRelay, rfl, .inl rfl⟩ (Prog.playFor_runs redis_admits 3 (draining oneRelay) acceptedOne.shared)
      trivial
  obtain ⟨did, member⟩ := acceptedOne_returned
  exact ⟨acceptedOne_made.trans died, ⟨did, List.mem_append_left _ member⟩, by decide +kernel, by decide +kernel⟩

end EmailVerifier.Relay
