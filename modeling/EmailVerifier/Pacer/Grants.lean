import EmailVerifier.Pacer.Pauses
import EmailVerifier.Semantics.Hands

/-! Budget and room that are granted while a key stands down.

`Acquire` and `AcquireSession` look at the pause once, through the reference `stateFor` gave
them, and then try and wait for as long as it takes. What they saw may be stale by the
time they are granted something, and the entry they saw it in may be dropped.
-/

set_option autoImplicit false

namespace EmailVerifier.Pacer
open Text Data Semantics

def Node.Unpaused (s : Node) (key : Str) : Prop :=
  ∀ st, s.memory.state key = some st → st.pausedUntil.nanos ≤ s.clock.nanos

def granted : Event calls → Option Str
  | ⟨.take key _ _, .ok d⟩ => if d.allowed then some key else none
  | ⟨.lease key _ _, .ok d⟩ => if d.granted then some key else none
  | _ => none

inductive Hold where
  | idle
  -- It has a reference to the entry of a key.
  | holding (key : Str) (ref : Nat)
  -- It has seen that the key is not paused.
  | cleared (key : Str)
  deriving DecidableEq

def Hold.clear : Hold → Hold
  | .holding key _ => .cleared key
  | h => h

def Hold.note (h : Hold) : Event calls → Hold
  | ⟨.locked (.find key), some ref⟩ => .holding key ref
  | ⟨.locked (.install key _ _), ref⟩ => .holding key ref
  | ⟨.locked (.budget _), some (.ok _)⟩ => h.clear
  | ⟨.locked (.room _), some (.ok _)⟩ => h.clear
  | _ => h

/-- A call asks for budget or room only where it has seen that the key is not paused, and
once it has a reference it leaves every entry as it is. -/
def Hold.mayDo (h : Hold) : Op → Prop
  | .take key _ _ | .lease key _ _ => h = .cleared key
  | .locked (.budget ref) | .locked (.room ref) => ∃ key, h = .holding key ref
  | .locked (.enter _) | .now | .after _ | .leaseWait _ => True
  | _ => h = .idle

abbrev Holds : World calls Hold := World.guarded (fun h e => h.mayDo e.op) Hold.note

def Aloof : Op → Prop
  | .take _ _ _ | .lease _ _ _ => False
  | .locked (.find _) | .locked (.install _ _ _) | .locked (.budget _) | .locked (.room _) => False
  | _ => True

lemma Aloof.holds {op : Op} (aloof : Aloof op) (a : op.Answer) : Holds .idle ⟨op, a⟩ .idle := by
  cases op with
  | locked sec => cases sec <;> first | exact ⟨rfl, rfl⟩ | exact ⟨trivial, rfl⟩ | cases aloof
  | take _ _ _ | lease _ _ _ => cases aloof
  | now | after _ | leaseWait _ => exact ⟨trivial, rfl⟩
  | _ => exact ⟨rfl, rfl⟩

section
variable {A : Type} {key : Str} {post : A → Hold → Prop}

lemma aloof_holds {p : Act A} (only : p.Only Aloof) : p.Follows Holds (fun _ _ => True) .idle :=
  only.follows (fun _ a aloof => aloof.holds a) fun _ => trivial

lemma ask_aloof {op : Op} {f : op.Answer → Act A} (rest : ∀ a, (f a).Only Aloof)
    (aloof : Aloof op := by exact trivial) : (Prog.ask (I := calls) op >>= f).Only Aloof :=
  .bind ((Prog.only_ask _).mpr aloof) rest

lemma takeToken_holds (key : Str) (rate burst : ℚ) (fuel : Nat) :
    (takeToken key rate burst fuel).Follows Holds (fun _ _ => True) (.cleared key) := by
  induction fuel with
  | zero => trivial
  | succ fuel ih =>
    apply Prog.Follows.heed fun _ => rfl
    intro taken
    cases taken with
    | error err => trivial
    | ok d =>
      dsimp only
      split
      · trivial
      · apply Prog.Follows.heed fun _ => trivial
        intro waited
        cases waited with
        | error err => trivial
        | ok _ => exact ih

def Passing : Op → Prop
  | .now | .leaseWait _ | .locked (.enter _) => True
  | _ => False

lemma passing_holds {h : Hold} {p : Act A} (only : p.Only Passing) : p.Follows Holds (fun _ _ => True) h := by
  refine only.heed fun h e passing => ?_
  obtain ⟨op, a⟩ := e
  cases op with
  | locked sec => cases sec <;> trivial
  | now | leaseWait _ => trivial
  | _ => cases passing

lemma ask_passing {op : Op} {f : op.Answer → Act A} (rest : ∀ a, (f a).Only Passing)
    (passing : Passing op := by exact trivial) : (Prog.ask (I := calls) op >>= f).Only Passing :=
  .bind ((Prog.only_ask _).mpr passing) rest

lemma takeLease_holds (o : Options) (key : Str) (limit : Int) (start : Time) (refused : Bool) (fuel : Nat) :
    (takeLease o key limit start refused fuel).Follows Holds (fun _ _ => True) (.cleared key) := by
  induction fuel generalizing refused with
  | zero => trivial
  | succ fuel ih =>
    apply Prog.Follows.heed fun _ => rfl
    intro leased
    cases leased with
    | error err => exact passing_holds (ask_passing fun _ => Prog.only_pure _)
    | ok d =>
      dsimp only
      split
      · refine passing_holds (ask_passing fun t => .bind ?_ fun _ => ask_passing fun _ => Prog.only_pure _)
        unfold recordLease
        split
        · exact (Prog.only_ask _).mpr trivial
        · exact Prog.only_pure _
      · apply Prog.Follows.heed fun _ => trivial
        intro t
        split
        · split
          · exact passing_holds (ask_passing fun _ => ask_passing fun _ => ask_passing fun _ => Prog.only_pure _)
          · exact passing_holds (ask_passing fun _ => ask_passing fun _ => Prog.only_pure _)
        · apply Prog.Follows.heed fun _ => trivial
          intro waited
          cases waited with
          | error err => exact passing_holds (ask_passing fun _ => Prog.only_pure _)
          | ok _ => exact ih true

variable [Unicode] [Codec]

lemma stateFor_holds {domain : Str} {f : Nat → Act A} (rest : ∀ ref, (f ref).Follows Holds post (.holding key ref)) :
    (stateFor key domain >>= f).Follows Holds post .idle := by
  apply Prog.Follows.bind
  apply Prog.Follows.heed fun _ => rfl
  intro found
  cases found with
  | some ref => exact rest ref
  | none =>
    apply Prog.Follows.heed fun _ => rfl
    intro limits
    apply Prog.Follows.heed fun _ => rfl
    intro saved
    apply Prog.Follows.heed fun _ => rfl
    exact rest

lemma Acquire_holds (fuel : Nat) (mxHost domain : Str) :
    (Acquire fuel mxHost domain).Follows Holds (fun _ _ => True) .idle := by
  refine stateFor_holds fun ref => ?_
  apply Prog.Follows.heed fun _ => ⟨_, rfl⟩
  intro budget
  rcases budget with _ | till | ⟨rate, burst⟩
  · trivial
  · trivial
  · exact takeToken_holds _ rate burst fuel

lemma AcquireSession_holds (o : Options) (fuel : Nat) (mxHost domain : Str) :
    (AcquireSession o fuel mxHost domain).Follows Holds (fun _ _ => True) .idle := by
  unfold AcquireSession
  dsimp only
  split
  · trivial
  · refine stateFor_holds fun ref => ?_
    apply Prog.Follows.heed fun _ => ⟨_, rfl⟩
    intro room
    rcases room with _ | till | limit
    · trivial
    · trivial
    · apply Prog.Follows.heed fun _ => trivial
      exact fun start => takeLease_holds o _ limit start false fuel

lemma Observe_aloof (o : Options) (mxHost : Str) (throttled : Bool) : (Observe o mxHost throttled).Only Aloof := by
  refine ask_aloof fun seen => ?_
  rcases seen with _ | ⟨snapshot, paused, propose⟩
  · exact Prog.only_pure _
  · have persists : (persist (PaceKey mxHost) snapshot).Only Aloof := by
      refine ask_aloof fun _ => ask_aloof fun _ => ask_aloof fun _ => ?_
      split
      · exact ask_aloof fun _ => Prog.only_pure _
      · exact Prog.only_pure _
    have proposes : (proposeBand o (PaceKey mxHost) snapshot).Only Aloof := by
      unfold proposeBand
      dsimp only
      split
      · exact Prog.only_pure _
      · exact ask_aloof fun _ => ask_aloof fun _ => Prog.only_pure _
    have publishes : (do
        if propose then proposeBand o (PaceKey mxHost) snapshot
        persist (PaceKey mxHost) snapshot : Act Unit).Only Aloof := by
      cases propose with
      | true => exact .bind proposes fun _ => persists
      | false => exact persists
    dsimp only
    split
    · exact ask_aloof fun _ => publishes
    · exact publishes

omit [Codec] in
lemma PauseKey_aloof (o : Options) (mxHost : Str) (till : Time) : (PauseKey o mxHost till).Only Aloof := by
  refine ask_aloof fun _ => ?_
  have saves : (set (pauseField (PaceKey mxHost)) (formatInt till.Unix)).Only Aloof := (Prog.only_ask _).mpr trivial
  dsimp only
  split
  · exact ask_aloof fun _ => saves
  · exact saves

lemma Promote_aloof (mxHost : Str) : (Promote mxHost).Only Aloof := by
  have reads : (standingProposal (PaceKey mxHost)).Only Aloof := ask_aloof fun _ => Prog.only_pure _
  refine .bind reads fun found => ?_
  cases found with
  | none => exact Prog.only_pure _
  | some pr =>
    refine .bind (ask_aloof fun _ => Prog.only_pure _) fun band => ?_
    split
    · exact Prog.only_pure _
    · refine ask_aloof fun written => ?_
      cases written with
      | error err => exact Prog.only_pure _
      | ok _ =>
        refine ask_aloof fun cleared => ?_
        cases cleared with
        | error err => exact Prog.only_pure _
        | ok _ => exact ask_aloof fun _ => Prog.only_pure _

lemma prog_holds (o : Options) (call : Call) : (call.prog o).Follows Holds (fun _ _ => True) .idle := by
  have discards {B : Type} {p : Act B} {h : Hold} (follows : p.Follows Holds (fun _ _ => True) h) :
      (Functor.discard p).Follows Holds (fun _ _ => True) h := follows.andThen fun _ _ _ => trivial
  cases call with
  | acquire fuel mxHost domain => exact discards (Acquire_holds fuel mxHost domain)
  | acquireSession fuel mxHost domain => exact discards (AcquireSession_holds o fuel mxHost domain)
  | release key id => exact aloof_holds (ask_aloof fun _ => ask_aloof fun _ => Prog.only_pure _)
  | observe mxHost throttled => exact aloof_holds (Observe_aloof o mxHost throttled)
  | pauseKey mxHost till => exact discards (aloof_holds (PauseKey_aloof o mxHost till))
  | resumeKey mxHost =>
    have resumes : (ResumeKey mxHost).Only Aloof := ask_aloof fun _ => (Prog.only_ask _).mpr trivial
    exact discards (aloof_holds resumes)
  | promote mxHost => exact discards (aloof_holds (Promote_aloof mxHost))

end

def forward (o : Options) (faults : Bool) : World calls Node :=
  fun s e s' => Serves o faults s e s' ∧ s.clock.nanos ≤ s'.clock.nanos

/-- Calls side by side on one process. Time passes, entries may be dropped, and others may
write to the store. -/
def pacers [Unicode] [Codec] (o : Options) (faults : Bool) : Rules calls Unit Node where
  world := forward o faults
  job p := ∃ call, p = Call.prog o call
  drift pool s' := ∃ keys store clock, pool.shared.clock.nanos ≤ clock.nanos ∧
    s' = { pool.shared.drop keys with store, clock }

/-- The event gives the key a pause that is in force now and that it did not have. -/
def Pauses (s : Node) (key : Str) (s' : Node) : Prop :=
  ∃ st', s'.memory.state key = some st' ∧ s'.clock.nanos < st'.pausedUntil.nanos ∧
    ∀ st, s.memory.state key = some st → st.pausedUntil.nanos < st'.pausedUntil.nanos

/-- The call is past its check of the key, or is about to check an entry that was dropped. -/
def Hold.Relies (h : Hold) (m : Memory) (key : Str) : Prop :=
  h = .cleared key ∨ ∃ ref, h = .holding key ref ∧ m.mx.lookup key ≠ some ref

/-- The condition on an event: it pauses no key that another call relies on until it returns. -/
def Spares : Condition calls Hold Node := fun others s _ _ s' =>
  ∀ h ∈ others, ∀ key, h.Relies s.memory key → ¬ Pauses s key s'

def Hold.Good (s : Node) : Hold → Prop
  | .idle => True
  | .holding key ref => s.memory.mx.lookup key = some ref ∨ s.Unpaused key
  | .cleared key => s.Unpaused key

section
variable {o : Options} {faults : Bool} {s s' : Node} {e : Event calls} {key : Str} {h : Hold}

lemma Node.Unpaused.spared (free : s.Unpaused key) (later : s.clock.nanos ≤ s'.clock.nanos)
    (spared : ¬ Pauses s key s') : s'.Unpaused key := by
  intro st' found
  by_contra paused
  refine spared ⟨st', found, not_le.mp paused, fun st before => ?_⟩
  have passed := free st before
  omega

lemma Node.Unpaused.later (free : s.Unpaused key) (later : s.clock.nanos ≤ s'.clock.nanos)
    (same : s'.memory.state key = s.memory.state key) : s'.Unpaused key := by
  intro st found
  rw [same] at found
  exact (free st found).trans later

lemma serves_lookup (served : Serves o faults s e s') {ref : Nat} (found : s'.memory.mx.lookup key = some ref) :
    s.memory.mx.lookup key = some ref ∨ s.memory.mx.lookup key = none := by
  cases served with
  | entered _ =>
    rcases run_lookup found with before | ⟨_, _, _, absent, _⟩
    · exact .inl before
    · exact .inr absent
  | now | got | unread _ | put | unwritten _ | unheard _ | other _ => exact .inl found

lemma unpaused_of_absent (absent : s.memory.mx.lookup key = none) : s.Unpaused key := by
  intro st found
  rw [state_none absent] at found
  cases found

lemma Hold.Good.meanwhile (good : h.Good s) (later : s.clock.nanos ≤ s'.clock.nanos)
    (lookups : ∀ key ref, s'.memory.mx.lookup key = some ref →
      s.memory.mx.lookup key = some ref ∨ s.memory.mx.lookup key = none)
    (spared : ∀ key, h.Relies s.memory key → ¬ Pauses s key s') : h.Good s' := by
  cases h with
  | idle => trivial
  | cleared key => exact Node.Unpaused.spared good later (spared key (.inl rfl))
  | holding key ref =>
    by_cases tracked : s.memory.mx.lookup key = some ref
    · -- The entry is still the one it was, or it is dropped.
      cases after : s'.memory.mx.lookup key with
      | none => exact .inr (unpaused_of_absent after)
      | some ref' =>
        left
        rcases lookups key ref' after with before | absent
        · rw [after, ← before, tracked]
        · rw [tracked] at absent
          cases absent
    · have free := good.resolve_left tracked
      exact .inr (free.spared later (spared key (.inr ⟨ref, rfl, tracked⟩)))

lemma unlessPaused_passed {A : Type} {m : Memory} {ref : Nat} {t : Time} {read : MXState → A} {x : A}
    (passed : m.unlessPaused ref t read = some (.ok x)) {st : MXState} (here : m.objects[ref]? = some st) :
    st.pausedUntil.nanos ≤ t.nanos := by
  unfold Memory.unlessPaused at passed
  rw [here, Option.map_some] at passed
  split at passed
  · cases passed
  · rename_i free
    simpa [Time.Before] using free

lemma Hold.Good.checked {ref : Nat} {t : Time} {history : List Observation} {A : Type} {read : MXState → A} {x : A}
    (good : (Hold.holding key ref).Good s) (later : s.clock.nanos ≤ t.nanos)
    (passed : s.memory.unlessPaused ref t read = some (.ok x)) :
    ({ s with clock := t, history } : Node).Unpaused key := by
  intro st found
  rcases good with tracked | free
  · obtain ⟨ref', tracked', here⟩ := state_eq_some.mp found
    rw [show s.memory.mx.lookup key = some ref' from tracked'] at tracked
    cases tracked
    exact unlessPaused_passed passed here
  · exact (free st found).trans later

lemma Hold.Good.still (good : h.Good s) (later : s.clock.nanos ≤ s'.clock.nanos) (mx : s'.memory.mx = s.memory.mx)
    (objects : s'.memory.objects = s.memory.objects) : h.Good s' := by
  have same (key : Str) : s'.memory.state key = s.memory.state key := by rw [Memory.state, Memory.state, mx, objects]
  cases h with
  | idle => trivial
  | cleared key => exact Node.Unpaused.later good later (same key)
  | holding key ref => exact good.imp (fun tracked => mx ▸ tracked) fun free => free.later later (same key)

lemma Hold.Good.own (good : h.Good s) (may : h.mayDo e.op) (served : forward o faults s e s') : (h.note e).Good s' := by
  obtain ⟨served, later⟩ := served
  cases served with
  | now => exact good.still later rfl rfl
  | got | unread _ => exact good
  | put | unwritten _ | unheard _ => exact good.still later rfl rfl
  | @other _ e elsewhere =>
    obtain ⟨op, a⟩ := e
    cases op <;> first | exact good | cases elsewhere
  | @entered _ sec t got read =>
    cases sec with
    | find key =>
      cases found : (Section.run o t got s.memory (.find key)).1 with
      | none =>
        cases (show h = .idle from may)
        trivial
      | some ref => exact .inl (find_tracks found)
    | install key band start => exact .inl (install_tracks _ _ _ _ _ _ _)
    | budget ref =>
      obtain ⟨key, rfl⟩ := may
      rcases found : (Section.run o t got s.memory (.budget ref)).1 with _ | till | point
      · exact good.still later rfl rfl
      · exact good.still later rfl rfl
      · exact good.checked later found
    | room ref =>
      obtain ⟨key, rfl⟩ := may
      rcases found : (Section.run o t got s.memory (.room ref)).1 with _ | till | limit
      · exact good.still later rfl rfl
      · exact good.still later rfl rfl
      · exact good.checked later found
    | enter key => exact good.still later rfl rfl
    | _ =>
      cases (show h = .idle from may)
      trivial

end

lemma granted_cleared {e : Event calls} {key : Str} {h : Hold} (grants : granted e = some key) (may : h.mayDo e.op) :
    h = .cleared key := by
  unfold granted at grants
  split at grants
  · split at grants
    · cases grants
      exact may
    · cases grants
  · split at grants
    · cases grants
      exact may
    · cases grants
  · cases grants

section
variable [Unicode] [Codec] {o : Options} {faults : Bool}

lemma pacers_good : Keeping (pacers o faults) (fun h e => h.mayDo e.op) Hold.note .idle Spares (fun _ _ => True)
    (fun s running _ => ∀ h ∈ running, h.Good s) where
  join s running gone good := forall_mem_snoc.mpr ⟨good, trivial⟩
  act s s' before h after gone e good may served spares h' member := by
    rcases mem_middle.mp member with rfl | other
    · exact (good h mem_here).own may served
    · exact (good h' (mem_stays other)).meanwhile served.2 (fun _ _ => serves_lookup served.1)
        (spares h' other)
  leave s before h after gone good _ h' member := good h' (mem_stays member)
  drift pool s' running gone drifts good h member := by
    obtain ⟨keys, store, clock, later, rfl⟩ := drifts
    refine (good h member).meanwhile later (fun key ref found => .inl (forgetAll_lookup found)) fun key _ pauses => ?_
    -- A drop sets no pause.
    obtain ⟨st, found, -, longer⟩ := pauses
    exact absurd (longer st (Memory.forgetAll_state found)) (lt_irrefl _)

/-- Where no key is paused that another call relies on, whatever is granted is granted for
a key whose pause has passed. -/
theorem granted_unpaused {store : Str → Option Str} {clock : Time} {pool : Pool calls Unit Node}
    (reached : Pool.ReachesIf (pacers o faults) Hold.note .idle Spares { shared := booted store clock } pool)
    {did : Trace calls} {op : Op} {next : op.Answer → Act Unit} (running : ⟨did, .perform op next⟩ ∈ pool.running)
    {a : op.Answer} {key : Str} (grants : granted ⟨op, a⟩ = some key) : pool.shared.Unpaused key := by
  have orderly : Pool.Orderly (fun h e => Hold.mayDo h e.op) Hold.note (fun _ _ => True) .idle
      ({ shared := booted store clock } : Pool calls Unit Node) := ⟨by simp, by simp⟩
  obtain ⟨orderly, good⟩ := pacers_good.reached (fun _ ⟨call, same⟩ => same ▸ prog_holds o call) orderly
    (by simp [Pool.hands]) reached
  obtain ⟨_, ⟨may, -⟩, -⟩ := orderly.running _ running a
  have hand : did.foldl Hold.note .idle ∈ pool.hands Hold.note .idle := List.mem_map.mpr ⟨_, running, rfl⟩
  have cleared : did.foldl Hold.note .idle = .cleared key := granted_cleared grants may
  have held := good _ hand
  rw [cleared] at held
  exact held

end

def newborn : Node := booted (fun _ => none) (Time.ofUnix 0)

-- It has seen that the key is not paused and is about to take a token.
def checked : Trace calls × Prog calls Unit × Node :=
  (Call.prog {} (.acquire 1 (lit "mx.test") [])).playFor (standing {}) 5 newborn

def waiting : Proc calls Unit := ⟨checked.1, checked.2.1⟩

def nextGrant (s : Node) : Prog calls Unit → Option Str
  | .done _ => none
  | .perform op _ => granted ⟨op, (standing {} s op).1⟩

lemma nextGrant_some {s : Node} {q : Prog calls Unit} {key : Str} (next : nextGrant s q = some key) :
    ∃ op f, q = .perform op f ∧ granted ⟨op, (standing {} s op).1⟩ = some key := by
  cases q with
  | done a => cases next
  | perform op f => exact ⟨op, f, rfl, next⟩

lemma standing_forward (o : Options) (faults : Bool) (s : Node) (op : Op) :
    forward o faults s ⟨op, (standing o s op).1⟩ (standing o s op).2 := by
  refine ⟨standing_serves o faults s op, ?_⟩
  cases op <;> exact le_refl _

-- A call pauses the key for an hour.
def stoodBy (s : Node) : Trace calls × Unit × Node :=
  (Call.prog {} (.pauseKey (lit "mx.test") (Time.ofUnix 3600))).play (standing {}) s

-- The hour is over.
def rested : Node := { (stoodBy newborn).2.2.drop [] with store := (stoodBy newborn).2.2.store, clock := Time.ofUnix 3600 }

def rechecked : Trace calls × Prog calls Unit × Node :=
  (Call.prog {} (.acquire 1 (lit "mx.test") [])).playFor (standing {}) 5 rested

/-- The key was paused, and is not when the token is taken. -/
theorem rechecked_unpaused : (rechecked.2.2.memory.state (lit "mx.test")).any (·.pausedUntil = Time.ofUnix 3600) = true ∧
    rechecked.2.2.Unpaused (lit "mx.test") := by
  have admits (s : Node) (op : Op) : (pacers {} false).minding Spares [] s ⟨op, (standing {} s op).1⟩ (standing {} s op).2 :=
    ⟨standing_forward {} false s op, fun _ => trivial, fun _ _ member => by cases member⟩
  have paused : Pool.ReachesIf (pacers {} false) Hold.note .idle Spares { shared := newborn }
      ⟨(stoodBy newborn).2.2, [], [((stoodBy newborn).1, some ())]⟩ :=
    .returns rfl ⟨_, rfl⟩ (Prog.play_runs id admits _ newborn)
  have reached : Pool.ReachesIf (pacers {} false) Hold.note .idle Spares { shared := newborn }
      ⟨rechecked.2.2, [⟨rechecked.1, rechecked.2.1⟩], [((stoodBy newborn).1, some ())]⟩ :=
    (paused.tail (.aside (.drift ⟨[], _, _, by decide +kernel, rfl⟩))).trans
      (Pool.ReachesIf.starts rfl ⟨_, rfl⟩ (Prog.playFor_runs admits 5 _ rested))
  have next : nextGrant rechecked.2.2 rechecked.2.1 = some (lit "mx.test") := by decide +kernel
  obtain ⟨op, f, rest, grants⟩ := nextGrant_some next
  have running : (⟨rechecked.1, .perform op f⟩ : Proc calls Unit) ∈ [⟨rechecked.1, rechecked.2.1⟩] := by
    rw [← rest]
    exact List.mem_singleton_self _
  exact ⟨by decide +kernel, granted_unpaused reached running grants⟩

-- Another call pauses the key that was seen unpaused.
def stoodDown : Trace calls × Unit × Node := stoodBy checked.2.2

/-- The token is granted all the same. -/
theorem granted_in_pause : ∃ pool : Pool calls Unit Node, Pool.Reaches (pacers {} false) { shared := newborn } pool ∧
    ∃ did op next a s', ⟨did, .perform op next⟩ ∈ pool.running ∧ granted ⟨op, a⟩ = some (lit "mx.test") ∧
      forward {} false pool.shared ⟨op, a⟩ s' ∧ ¬ pool.shared.Unpaused (lit "mx.test") := by
  have admits (s : Node) (op : Op) : forward {} false s ⟨op, (standing {} s op).1⟩ (standing {} s op).2 ∧
      ∀ _ : Trace calls, True := ⟨standing_forward {} false s op, fun _ => trivial⟩
  have checks : Pool.Reaches (pacers {} false) { shared := newborn } ⟨checked.2.2, [waiting], []⟩ :=
    Pool.Reaches.starts ⟨_, rfl⟩ (Prog.playFor_runs admits 5 _ newborn)
  have pauses : Pool.Reaches (pacers {} false) ⟨checked.2.2, [waiting], []⟩
      ⟨stoodDown.2.2, [waiting], [(stoodDown.1, some ())]⟩ :=
    Pool.Reaches.returns ⟨_, rfl⟩ (Prog.play_runs (W := fun s e s' => forward {} false s e s' ∧ ∀ _ : Trace calls, True)
      (fun s : Node => s) admits _ checked.2.2)
  have next : nextGrant stoodDown.2.2 checked.2.1 = some (lit "mx.test") := by decide +kernel
  have paused : (stoodDown.2.2.memory.state (lit "mx.test")).any
      (fun st => stoodDown.2.2.clock.nanos < st.pausedUntil.nanos) = true := by decide +kernel
  obtain ⟨op, f, rest, grants⟩ := nextGrant_some next
  refine ⟨_, checks.trans pauses, checked.1, op, f, _, _, ?_, grants, standing_forward {} false _ op, fun free => ?_⟩
  · rw [← rest]
    exact List.mem_singleton_self _
  · cases found : stoodDown.2.2.memory.state (lit "mx.test") with
    | none =>
      rw [found] at paused
      cases paused
    | some st =>
      rw [found] at paused
      exact absurd (of_decide_eq_true paused) (not_lt.mpr (free st found))

end EmailVerifier.Pacer
