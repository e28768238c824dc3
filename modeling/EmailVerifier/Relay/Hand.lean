import EmailVerifier.Relay.Course
import EmailVerifier.Relay.Drainers

/-! What a relay process has in hand.

Between `RPOP` and the next command that lists it, an id stands nowhere but in the
memory of the drainer that took it. `Hand` reads off a process's own trace what it
holds, what it has settled and whether something went wrong while it held an id. The
programs of the relay keep to `Duty`: they never take a second id, drop one they hold
or delete one they have not settled, unless something went wrong.
-/

set_option autoImplicit false

namespace EmailVerifier.Relay
open Text Data Semantics

structure Hand where
  held : Option Str := none
  -- Delivered, or found suppressed, while held.
  concluded : List Str := []
  stored : List Str := []
  -- Made ready by the process that stored it.
  entered : List Str := []
  troubled : Bool := false
  deriving DecidableEq

def Hand.settle (h : Hand) : Hand := { h with held := none, concluded := h.held.toList ++ h.concluded }

-- Something went wrong; it matters if an id is held.
def Hand.trouble (h : Hand) : Hand := { h with troubled := h.troubled || h.held.isSome }

def Hand.Clear (h : Hand) : Prop := h.troubled = true ∨ h.held = none

lemma Hand.trouble_free (h : Hand) (free : h.held = none) : h.trouble = h := by
  cases h
  cases free
  simp [Hand.trouble]

lemma Hand.settle_free (h : Hand) (free : h.held = none) : h.settle = h := by
  cases h
  cases free
  rfl

lemma Hand.settle_concluded (h : Hand) {id : Str} (held : h.held = some id) :
    h.settle.held = none ∧ id ∈ h.settle.concluded := ⟨rfl, by simp [Hand.settle, held]⟩

lemma Hand.trouble_held (h : Hand) {id : Str} (held : h.held = some id) : h.trouble.troubled = true := by
  simp [Hand.trouble, held]

section
variable [Library]

def Decodes (blob id : Str) : Prop := ∃ item, Library.unmarshal blob = .ok item ∧ item.id = id

def decodes (blob id : Str) : Bool :=
  match Library.unmarshal blob with
  | .ok item => item.id = id
  | .error _ => false

lemma decodes_iff (blob id : Str) : decodes blob id = true ↔ Decodes blob id := by
  unfold decodes Decodes
  cases Library.unmarshal blob with
  | error err => simp
  | ok item => simp

def Hand.replied (h : Hand) : (c : Cmd) → c.Reply → Hand
  | .set id _, _ => { h with stored := id :: h.stored }
  | .get _, none => { h with held := none }
  | .get id, some blob => if decodes blob id then h else { h with troubled := true }
  | .rpop, some id => if id = [] then h else { h with held := some id }
  | .zrem id, removed => if (show Int from removed) = 0 then h else { h with held := some id }
  | .lpush .ready id, _ =>
    { h with held := none, entered := if h.held = some id then h.entered else id :: h.entered }
  | .lpush .dead _, _ => { h with held := none }
  | .zadd _ _, _ => { h with held := none }
  | _, _ => h

-- The commands that a message in hand depends on.
def Cmd.carries : Cmd → Bool
  | .set _ _ | .get _ | .lpush _ _ | .zadd _ _ => true
  | _ => false

def Hand.note (h : Hand) : Event calls → Hand
  | ⟨.store c, .ok reply⟩ => h.replied c reply
  | ⟨.store c, .error _⟩ => if c.carries then h.trouble else h
  | ⟨.stale, true⟩ => h.trouble
  | ⟨.suppressed _, .error _⟩ => h.trouble
  | ⟨.suppressed _, .ok (true, _)⟩ => h.settle
  | ⟨.send _ _, out⟩ => if out.delivered then h.settle else h
  | _ => h

/-- When a command is in order. Where something has gone wrong already, all are. -/
def Hand.mayDo (h : Hand) (o : Op) : Prop :=
  h.troubled = false →
    match o with
    | .store (.set id blob) => Decodes blob id
    | .store (.get id) => h.held = some id
    | .store (.del id) => id ∈ h.concluded
    | .store (.lpush .ready id) => h.held = some id ∨ (h.held = none ∧ id ∈ h.stored ∧ id ≠ [])
    | .store (.lpush .dead id) => h.held = some id
    | .store (.zadd _ id) => h.held = some id
    | .store .rpop => h.held = none
    | .store (.zrem _) => h.held = none
    | _ => True

abbrev Duty : World calls Hand := World.guarded (fun h e => h.mayDo e.op) Hand.note

def handOf (did : Trace calls) : Hand := did.foldl Hand.note {}

lemma Hand.note_aside (h : Hand) {op : Op} (aside : op.aside = true) (a : op.Answer) : h.note ⟨op, a⟩ = h := by
  cases op with
  | store c =>
    cases c with
    | llen _ | zcard => cases a <;> rfl
    | _ => cases aside
  | enforcing | sent _ | queueDepth _ _ _ => rfl
  | _ => cases aside

lemma Hand.mayDo_aside (h : Hand) {op : Op} (aside : op.aside = true) : h.mayDo op := by
  intro _
  cases op with
  | store c =>
    cases c with
    | llen _ | zcard => trivial
    | _ => cases aside
  | _ => trivial

lemma Hand.replied_troubled (h : Hand) (c : Cmd) (reply : c.Reply) (troubled : h.troubled = true) :
    (h.replied c reply).troubled = true := by
  unfold Hand.replied
  split <;> first | exact troubled | (split <;> first | exact troubled | rfl)

lemma Hand.note_troubled (h : Hand) (e : Event calls) (troubled : h.troubled = true) : (h.note e).troubled = true := by
  have trouble : h.trouble.troubled = true := by simp [Hand.trouble, troubled]
  unfold Hand.note
  split
  · exact h.replied_troubled _ _ troubled
  · split
    · exact trouble
    · exact troubled
  · exact trouble
  · exact trouble
  · exact troubled
  · split <;> exact troubled
  · exact troubled

/-- What a process has in hand at each point, where nothing went wrong. -/
def Hand.At (h : Hand) : Point → Prop
  | .moving id _ | .popped id => h.held = some id
  | .taken item _ | .undialled item | .failed item | .stored item => h.held = some item.id
  | .tried item _ out =>
    (out.delivered = true → h.held = none ∧ item.id ∈ h.concluded) ∧ (out.delivered = false → h.held = some item.id)
  | .settled item _ => h.held = none ∧ item.id ∈ h.concluded
  | _ => h.held = none

section
variable {o : Options} {h : Hand} {p p' : Point} {e : Event calls}

lemma Hand.arrow (step : Course o p e p') (here : h.At p) :
    h.mayDo e.op ∧ ((h.note e).troubled = true ∨ (h.note e).At p') := by
  cases step with
  | aside quiet _ =>
    rw [h.note_aside quiet]
    exact ⟨h.mayDo_aside quiet, .inr here⟩
  | unremoved | gone | unpopped | empty | nameless => exact ⟨fun _ => here, .inr here⟩
  | removed some =>
    refine ⟨fun _ => here, .inr ?_⟩
    change Hand.held (if _ then h else _) = _
    rw [if_neg some]
  | popped named =>
    refine ⟨fun _ => here, .inr ?_⟩
    change Hand.held (if _ then h else _) = _
    rw [if_neg named]
  | pushed => exact ⟨fun _ => .inl here, .inr rfl⟩
  | unpushed => exact ⟨fun _ => .inl here, .inl (h.trouble_held here)⟩
  | unfetched => exact ⟨fun _ => here, .inl (h.trouble_held here)⟩
  | bodiless => exact ⟨fun _ => here, .inr rfl⟩
  | @garbled id blob err decoded =>
    refine ⟨fun _ => here, .inl ?_⟩
    change Hand.troubled (if decodes blob id then h else _) = _
    rw [decodes, decoded]
    rfl
  | @fetched id blob item decoded =>
    refine ⟨fun _ => here, ?_⟩
    change Hand.troubled (if decodes blob id then h else _) = _ ∨ Hand.held (if decodes blob id then h else _) = _
    by_cases sound : item.id = id
    · have held : h.held = some id := here
      simp [decodes, decoded, sound, held]
    · simp [decodes, decoded, sound]
  | stale | unreadable => exact ⟨fun _ => trivial, .inl (h.trouble_held here)⟩
  | suppressed => exact ⟨fun _ => trivial, .inr (h.settle_concluded here)⟩
  | @sent item f conn opt out =>
    have noted : h.note ⟨.send conn opt, out⟩ = if out.delivered then h.settle else h := rfl
    rw [noted]
    refine ⟨fun _ => trivial, .inr ⟨fun done => ?_, fun undone => ?_⟩⟩
    · rw [if_pos done]
      exact h.settle_concluded here
    · rw [if_neg (Bool.eq_false_iff.mp undone)]
      exact here
  | delivered done => exact ⟨fun _ => trivial, .inr (here.1 done)⟩
  | undelivered undone => exact ⟨fun _ => trivial, .inr (here.2 undone)⟩
  | unkept decoded same => exact ⟨fun _ => ⟨_, decoded, same⟩, .inl (h.trouble_held here)⟩
  | kept decoded same => exact ⟨fun _ => ⟨_, decoded, same⟩, .inr here⟩
  | @buried item a | @scheduled item due a =>
    cases a with
    | error err => exact ⟨fun _ => here, .inl (h.trouble_held here)⟩
    | ok _ => exact ⟨fun _ => here, .inr rfl⟩
  | @deleted item why a => cases a <;> exact ⟨fun _ => here.2, .inr here.1⟩
  | _ => exact ⟨fun _ => trivial, .inr here⟩

lemma DeliverNext_follows [Unicode] (free : h.held = none) : o.DeliverNext.Follows Duty (fun _ h' => h'.Clear) h := by
  have related : h.troubled = true ∨ h.At .start := .inr free
  refine (DeliverNext_course.simulated (R := fun p h => h.troubled = true ∨ h.At p) ?_ related).mono ?_
  · rintro p h e p' (troubled | here) step
    · refine ⟨_, ⟨fun calm => ?_, rfl⟩, .inl (h.note_troubled e troubled)⟩
      rw [troubled] at calm
      cases calm
    · obtain ⟨may, moved⟩ := h.arrow step here
      exact ⟨_, ⟨may, rfl⟩, moved⟩
  · rintro _ h' ⟨_, clear, rfl⟩
    exact clear

end

/-- An `Accept` that succeeded has entered its id. -/
def Hand.Accepted (domain : Str) (h : Hand) : Except Err Str → Prop
  | .ok messageID => ∃ id ∈ h.entered, messageID = id ++ lit "@" ++ domain
  | .error _ => True

-- Nothing is held, so neither trouble nor a suppressed address changes anything.
def Hand.Enters (h : Hand) : Desk → Prop
  | .entering id => h.held = none ∧ id ∈ h.stored ∧ id ≠ []
  | .entered id => h.held = none ∧ id ∈ h.entered
  | _ => h.held = none

lemma Hand.enters {h : Hand} {m : Message} {d d' : Desk} {e : Event calls} (step : Intake m d e d')
    (here : h.Enters d) : h.mayDo e.op ∧ (h.note e).Enters d' := by
  cases step with
  | @inquires id op a inquiry =>
    cases op with
    | enforcing | now | sign _ _ | randRead _ => exact ⟨fun _ => trivial, here⟩
    | stale =>
      refine ⟨fun _ => trivial, ?_⟩
      cases a with
      | false => exact here
      | true => exact (h.trouble_free here).symm ▸ here
    | _ => cases inquiry
  | @looksUp id a =>
    refine ⟨fun _ => trivial, ?_⟩
    match a with
    | .error _ => exact (h.trouble_free here).symm ▸ here
    | .ok (true, _) => exact (h.settle_free here).symm ▸ here
    | .ok (false, _) => exact here
  | unstored entry => exact ⟨fun _ => ⟨_, entry.decoded, entry.id⟩, (h.trouble_free here).symm ▸ here⟩
  | stored entry named => exact ⟨fun _ => ⟨_, entry.decoded, entry.id⟩, here, List.mem_cons_self, named⟩
  | unqueued => exact ⟨fun _ => .inr here, (h.trouble_free here.1).symm ▸ here.1⟩
  | @queued id =>
    refine ⟨fun _ => .inr here, rfl, ?_⟩
    simp [Hand.note, Hand.replied, here.1]
  | undrawn | drawn => exact ⟨fun _ => trivial, here⟩

lemma Accept_follows [Unicode] {o : Options} {m : Message} {h : Hand} (free : h.held = none) :
    (o.Accept m).Follows Duty (fun result h' => h'.Clear ∧ h'.Accepted o.domain result) h := by
  have here : h.Enters .blank := free
  refine (Accept_intake.simulated (R := fun d h => h.Enters d) ?_ here).mono ?_
  · rintro d h e d' here step
    obtain ⟨may, entered⟩ := h.enters step here
    exact ⟨_, ⟨may, rfl⟩, entered⟩
  · rintro result h' ⟨d, here, accepted⟩
    have free : h'.held = none := by
      cases d with
      | entering _ | entered _ => exact here.1
      | _ => exact here
    refine ⟨.inr free, ?_⟩
    cases result with
    | error err => trivial
    | ok messageID =>
      obtain ⟨id, rfl, same⟩ := accepted messageID rfl
      exact ⟨id, here.2, same⟩

end

end EmailVerifier.Relay
