import EmailVerifier.Relay.Hand

/-! Which ids a relay process answers for, whatever goes wrong.

`Hand` stops reckoning where something goes wrong; `Grip` does not. An id is in the grip of
a process from the command that took it off a list to the one that lists it again, buries
or deletes it, whether that command reported success or not. A caller has a grip on the id
it drew until it makes it ready. Beside it stand what the process read as due, how often
its message was tried, and whether that message got its final answer.
-/

set_option autoImplicit false

namespace EmailVerifier.Relay
open Text Data Semantics

structure Grip where
  held : Option Str := none
  drawn : Option Str := none
  -- The last reading of the clock.
  time : Int := 0
  -- Read as due, and not tried yet.
  due : List Str := []
  -- How often the message in hand was tried before.
  attempts : Nat := 0
  -- Refused for good, or at a domain that takes no mail, while held.
  answered : List Str := []
  freed : List Str := []
  -- A body was found that is not the one of its id.
  astray : Bool := false
  deriving DecidableEq

namespace Grip

def answer (g : Grip) : Grip := { g with answered := g.held.toList ++ g.answered }

def issued (g : Grip) : Cmd → Grip
  | .lpush .ready _ => { g with held := none, drawn := none }
  | .lpush .dead _ => { g with held := none }
  | .zadd _ _ => { g with held := none }
  | .del id => { g with held := none, freed := id :: g.freed }
  | .zrem id => { g with due := g.due.erase id }
  | _ => g

lemma issued_astray (g : Grip) (c : Cmd) : (g.issued c).astray = g.astray := by
  unfold Grip.issued
  split <;> rfl

section
variable [Library]

def open_ (g : Grip) (id blob : Str) : Grip :=
  match Library.unmarshal blob with
  | .ok item => if item.id = id then { g with attempts := item.attempts } else { g with astray := true }
  | .error _ => { g with astray := true }

def replied (g : Grip) : (c : Cmd) → c.Reply → Grip
  | .get id, some blob => g.open_ id blob
  | .rpop, some id => if id = [] then g else { g with held := some id }
  | .zrem id, removed => if (show Int from removed) = 0 then g else { g with held := some id }
  | .zrangeByScore _, ids => { g with due := ids }
  | _, _ => g

def note (g : Grip) : Event calls → Grip
  | ⟨.store c, .ok reply⟩ => (g.issued c).replied c reply
  | ⟨.store c, .error _⟩ => g.issued c
  | ⟨.now, t⟩ => { g with time := t }
  | ⟨.randRead _, .ok bytes⟩ => { g with drawn := g.drawn.or (some (base64RawURL bytes.val)) }
  | ⟨.mx _, .error err⟩ => if .nullMX ∈ err.is then g.answer else g
  | ⟨.send _ _, out⟩ => if out.permanent ∧ ¬ out.delivered then g.answer else g
  | _ => g

/-- When an operation is in order. The bound on attempts, if there is one, is that of every
relay. -/
def mayDo (limit : Option Int) (g : Grip) (o : Op) : Prop :=
  g.astray = false →
    match o with
    | .store (.set id blob) => Decodes blob id
    | .store (.get id) => g.held = some id ∧ g.answered = []
    | .store (.del id) => g.held = some id
    | .store (.lpush .ready id) => (g.held = some id ∨ (g.held = none ∧ g.drawn = some id)) ∧ g.answered = []
    | .store (.lpush .dead id) => g.held = some id
    | .store (.zadd _ id) => g.held = some id ∧ g.due = [] ∧ ∀ n, limit = some n → (g.attempts : Int) + 1 < n
    | .store .rpop => g.held = none
    | .store (.zrem id) => g.held = none ∧ id ∈ g.due
    | .store (.zrangeByScore upTo) => upTo = unix g.time
    | .randRead _ => g.held = none
    | .dialContext _ _ => g.answered = []
    | _ => True

end

structure Bare (g : Grip) : Prop where
  held : g.held = none
  due : g.due = []
  answered : g.answered = []

end Grip

section
variable [Library]

abbrev Clasp (limit : Option Int) : World calls Grip := World.guarded (fun g e => g.mayDo limit e.op) Grip.note

def gripOf (did : Trace calls) : Grip := did.foldl Grip.note {}

lemma Grip.note_aside (g : Grip) {op : Op} (aside : op.aside = true) (a : op.Answer) : g.note ⟨op, a⟩ = g := by
  cases op with
  | store c =>
    cases c with
    | llen _ | zcard => cases a <;> rfl
    | _ => cases aside
  | enforcing | sent _ | queueDepth _ _ _ => rfl
  | _ => cases aside

lemma Grip.mayDo_aside (limit : Option Int) (g : Grip) {op : Op} (aside : op.aside = true) : g.mayDo limit op := by
  intro _
  cases op with
  | store c =>
    cases c with
    | llen _ | zcard => trivial
    | _ => cases aside
  | enforcing | sent _ | queueDepth _ _ _ => trivial
  | _ => cases aside

lemma Grip.replied_astray (g : Grip) (c : Cmd) (reply : c.Reply) (astray : g.astray = true) :
    (g.replied c reply).astray = true := by
  unfold Grip.replied Grip.open_
  split <;> first | exact astray | (split <;> first | exact astray | (split <;> first | exact astray | rfl) | rfl)

lemma Grip.note_astray (g : Grip) (e : Event calls) (astray : g.astray = true) : (g.note e).astray = true := by
  unfold Grip.note Grip.answer
  split
  · exact (g.issued _).replied_astray _ _ (g.issued_astray _ ▸ astray)
  · rw [g.issued_astray]
    exact astray
  · exact astray
  · exact astray
  · split <;> exact astray
  · split <;> exact astray
  · exact astray

structure Grip.Carries (g : Grip) (item : Item) : Prop where
  held : g.held = some item.id
  due : g.due = []
  attempts : g.attempts = item.attempts

/-- What a process answers for at each point, unless it was led astray. -/
def Grip.At (g : Grip) : Point → Prop
  | .start => g.Bare
  | .timed t => g.Bare ∧ g.time = t
  | .promoting due => g.held = none ∧ g.due = due ∧ g.answered = []
  | .moving id due => g.held = some id ∧ g.due = due ∧ g.answered = []
  | .popped id => g.held = some id ∧ g.due = [] ∧ g.answered = []
  | .taken item _ => g.Carries item ∧ g.answered = []
  | .undialled item | .tried item _ _ | .failed item | .stored item | .settled item _ => g.Carries item
  | .over => True

def Queue.Bounded (limit : Option Int) (q : Queue) : Prop := ∀ n, limit = some n → q.maxAttempts ≤ n

section
variable {limit : Option Int} {g : Grip} {o : Options} {m : Message} {p p' : Point} {d d' : Desk} {e : Event calls}

omit [Library] in
lemma Grip.Carries.answered {item : Item} (carries : g.Carries item) (c : Prop) [Decidable c] :
    Grip.Carries (if c then g.answer else g) item := by
  split
  · exact ⟨carries.held, carries.due, carries.attempts⟩
  · exact carries

lemma Grip.arrow (bounded : o.queue.Bounded limit) (step : Course o p e p') (here : g.At p) :
    g.mayDo limit e.op ∧ ((g.note e).astray = true ∨ (g.note e).At p') := by
  cases step with
  | aside quiet _ =>
    rw [g.note_aside quiet]
    exact ⟨g.mayDo_aside limit quiet, .inr here⟩
  | clock => exact ⟨fun _ => trivial, .inr ⟨⟨here.held, here.due, here.answered⟩, rfl⟩⟩
  | unread => exact ⟨fun _ => congrArg unix here.2.symm, .inr trivial⟩
  | due => exact ⟨fun _ => congrArg unix here.2.symm, .inr ⟨here.1.held, rfl, here.1.answered⟩⟩
  | unremoved => exact ⟨fun _ => ⟨here.1, here.2.1 ▸ List.mem_cons_self⟩, .inr trivial⟩
  | @gone id due =>
    have tried : g.due.erase id = due := by rw [here.2.1, List.erase_cons_head]
    exact ⟨fun _ => ⟨here.1, here.2.1 ▸ List.mem_cons_self⟩, .inr ⟨here.1, tried, here.2.2⟩⟩
  | @removed id due n some =>
    have tried : g.due.erase id = due := by rw [here.2.1, List.erase_cons_head]
    refine ⟨fun _ => ⟨here.1, here.2.1 ▸ List.mem_cons_self⟩, .inr ?_⟩
    change Grip.At (if n = 0 then _ else { g.issued (.zrem id) with held := _ }) _
    rw [if_neg some]
    exact ⟨rfl, tried, here.2.2⟩
  | unpushed => exact ⟨fun _ => ⟨.inl here.1, here.2.2⟩, .inr trivial⟩
  | pushed => exact ⟨fun _ => ⟨.inl here.1, here.2.2⟩, .inr ⟨rfl, here.2⟩⟩
  | unpopped | empty | nameless => exact ⟨fun _ => here.1, .inr trivial⟩
  | @popped id named =>
    refine ⟨fun _ => here.1, .inr ?_⟩
    change Grip.At (if id = [] then g else { g with held := _ }) _
    rw [if_neg named]
    exact ⟨rfl, here.2⟩
  | unfetched | bodiless | garbled _ => exact ⟨fun _ => ⟨here.1, here.2.2⟩, .inr trivial⟩
  | @fetched id blob item decoded =>
    refine ⟨fun _ => ⟨here.1, here.2.2⟩, ?_⟩
    change (g.open_ id blob).astray = true ∨ (g.open_ id blob).At _
    rw [Grip.open_, decoded]
    dsimp only
    split
    · rename_i same
      exact .inr ⟨⟨same ▸ here.1, here.2.1, rfl⟩, here.2.2⟩
    · exact .inl rfl
  | stale | unreadable | suppressed | hostless | unpaid | unresolved | addressless => exact ⟨fun _ => trivial, .inr here.1⟩
  | unmailed => exact ⟨fun _ => trivial, .inr (here.1.answered _)⟩
  | undialled => exact ⟨fun _ => here.2, .inr here.1⟩
  | dialled => exact ⟨fun _ => here.2, .inr here⟩
  | sent => exact ⟨fun _ => trivial, .inr (here.1.answered _)⟩
  | unkept decoded same => exact ⟨fun _ => ⟨_, decoded, same⟩, .inr trivial⟩
  | kept decoded same => exact ⟨fun _ => ⟨_, decoded, same⟩, .inr here⟩
  | buried => exact ⟨fun _ => here.held, .inr trivial⟩
  | later => exact ⟨fun _ => trivial, .inr ⟨here.held, here.due, here.attempts⟩⟩
  | scheduled few =>
    refine ⟨fun _ => ⟨here.held, here.due, fun n same => ?_⟩, .inr trivial⟩
    have attempts := here.attempts
    have bound := bounded n same
    omega
  | deleted => exact ⟨fun _ => here.held, .inr trivial⟩
  | listed | paused => exact ⟨fun _ => trivial, .inr trivial⟩
  | _ => exact ⟨fun _ => trivial, .inr here⟩

lemma DeliverNext_clasp [Unicode] (bounded : o.queue.Bounded limit) (bare : g.Bare) :
    o.DeliverNext.Follows (Clasp limit) (fun _ _ => True) g := by
  have related : g.astray = true ∨ g.At .start := .inr bare
  refine (DeliverNext_course.simulated (R := fun p g => g.astray = true ∨ g.At p) ?_ related).mono fun _ _ _ => trivial
  rintro p g e p' (astray | here) step
  · refine ⟨_, ⟨fun sane => ?_, rfl⟩, .inl (g.note_astray e astray)⟩
    rw [astray] at sane
    cases sane
  · obtain ⟨may, moved⟩ := Grip.arrow bounded step here
    exact ⟨_, ⟨may, rfl⟩, moved⟩

def Grip.Enters (g : Grip) : Desk → Prop
  | .blank => g.Bare ∧ g.drawn = none
  | .drawn id | .entering id => g.Bare ∧ g.drawn = some id
  | _ => True

lemma Grip.enters (step : Intake m d e d') (here : g.Enters d) : g.mayDo limit e.op ∧ (g.note e).Enters d' := by
  cases step with
  | undrawn => exact ⟨fun _ => here.1.held, trivial⟩
  | drawn =>
    refine ⟨fun _ => here.1.held, ⟨here.1.held, here.1.due, here.1.answered⟩, ?_⟩
    change g.drawn.or _ = _
    rw [here.2, Option.none_or]
  | @inquires id op a inquiry =>
    cases op with
    | enforcing | stale | sign _ _ => exact ⟨fun _ => trivial, here⟩
    | now => exact ⟨fun _ => trivial, ⟨here.1.held, here.1.due, here.1.answered⟩, here.2⟩
    | randRead _ =>
      refine ⟨fun _ => here.1.held, ?_⟩
      cases a with
      | error _ => exact here
      | ok _ =>
        refine ⟨⟨here.1.held, here.1.due, here.1.answered⟩, ?_⟩
        change g.drawn.or _ = _
        rw [here.2, Option.some_or]
    | _ => cases inquiry
  | looksUp => exact ⟨fun _ => trivial, here⟩
  | unstored entry => exact ⟨fun _ => ⟨_, entry.decoded, entry.id⟩, trivial⟩
  | stored entry _ => exact ⟨fun _ => ⟨_, entry.decoded, entry.id⟩, here⟩
  | unqueued | queued => exact ⟨fun _ => ⟨.inr ⟨here.1.held, here.2⟩, here.1.answered⟩, trivial⟩

lemma Accept_clasp [Unicode] (bare : g.Bare) (fresh : g.drawn = none) :
    (o.Accept m).Follows (Clasp limit) (fun _ _ => True) g := by
  have here : g.Enters .blank := ⟨bare, fresh⟩
  refine (Accept_intake.simulated (R := fun d g => g.Enters d) ?_ here).mono fun _ _ _ => trivial
  intro d g e d' here step
  obtain ⟨may, entered⟩ := Grip.enters step here
  exact ⟨_, ⟨may, rfl⟩, entered⟩

lemma draining_clasp [Unicode] (bounded : o.queue.Bounded limit) :
    (draining o).Follows (Clasp limit) (fun _ _ => True) {} :=
  (DeliverNext_clasp bounded ⟨rfl, rfl, rfl⟩).andThen fun _ _ _ => trivial

lemma taking_clasp [Unicode] : (taking o m).Follows (Clasp limit) (fun _ _ => True) {} :=
  (Accept_clasp ⟨rfl, rfl, rfl⟩ rfl).andThen fun _ _ _ => trivial

end

end

end EmailVerifier.Relay
