import EmailVerifier.Pacer.Conduct
import EmailVerifier.Pacer.Sections
import EmailVerifier.Semantics.Triple

/-! Whether a pause is ever cut short.

Between calls the pause in memory and the one in the store agree to the second, so the
deadline in force is the saved one, whether the key is tracked or not. What is left are
the two writers of it.
-/

set_option autoImplicit false

namespace EmailVerifier.Pacer
open Text Data Semantics
open Relation (ReflTransGen)

namespace Node

def saved (s : Node) (key : Str) : Int := ((savedPause (.ok (s.store (pauseField key)))).getD Time.zero).Unix

/-- The pause in force for a key as `Acquire` would read it. -/
def deadline (s : Node) (key : Str) : Int := (s.memory.state key).elim (s.saved key) fun st => st.pausedUntil.Unix

structure Agrees (s : Node) : Prop where
  placed : s.memory.Placed
  same : ∀ key st, s.memory.state key = some st → st.pausedUntil.Unix = s.saved key

lemma Agrees.deadline {s : Node} (agrees : s.Agrees) (key : Str) : s.deadline key = s.saved key := by
  unfold Node.deadline
  cases found : s.memory.state key with
  | none => rfl
  | some st => exact agrees.same key st found

end Node

section
variable {o : Options} {now : Time} {got : Got} {m : Memory}

lemma touched_state (placed : m.Placed) {key key' : Str} {ref : Nat} {st' : MXState}
    (tracked : m.mx.lookup key = some ref)
    (found : ((m.objects[ref]?).elim m fun st => m.write ref (st.touch now)).state key' = some st') :
    ∃ st, m.state key' = some st ∧ st.SamePoint st' ∧ st'.pausedUntil = st.pausedUntil := by
  cases here : m.objects[ref]? with
  | none =>
    rw [here] at found
    exact ⟨st', found, ⟨rfl, rfl, rfl, rfl⟩, rfl⟩
  | some st =>
    rw [here, Option.elim_some, Memory.state_write placed tracked] at found
    split at found
    · rename_i same
      cases found
      exact ⟨st, same ▸ state_eq_some.mpr ⟨ref, tracked, here⟩, ⟨rfl, rfl, rfl, rfl⟩, rfl⟩
    · exact ⟨st', found, ⟨rfl, rfl, rfl, rfl⟩, rfl⟩

lemma calm_state {sec : Section} (calm : sec.calm = true) (placed : m.Placed) {key : Str} {st' : MXState}
    (found : (sec.run o now got m).2.state key = some st') :
    (∃ st, m.state key = some st ∧ st.SamePoint st' ∧ st'.pausedUntil = st.pausedUntil) ∨
    ∃ band start, sec = .install key band start ∧ m.mx.lookup key = none ∧
      st' = loaded band start now (savedPause got) := by
  have kept (before : m.state key = some st') :
      ∃ st, m.state key = some st ∧ st.SamePoint st' ∧ st'.pausedUntil = st.pausedUntil :=
    ⟨st', before, ⟨rfl, rfl, rfl, rfl⟩, rfl⟩
  cases sec with
  | find key' =>
    cases tracked : m.mx.lookup key' with
    | none =>
      simp only [Section.run, tracked] at found
      exact .inl (kept found)
    | some ref =>
      simp only [Section.run, tracked] at found
      exact .inl (touched_state placed tracked found)
  | install key' band start =>
    cases tracked : m.mx.lookup key' with
    | some ref =>
      simp only [Section.run, tracked] at found
      exact .inl (touched_state placed tracked found)
    | none =>
      have run : (Section.run o now got m (.install key' band start)).2 =
          (m.evictLocked o now).insert key' (loaded band start now (savedPause got)) := by
        simp only [Section.run, tracked]
      obtain ⟨ref, here, object⟩ := state_eq_some.mp found
      rcases run_lookup here with before | ⟨band', start', made, absent, rfl, objects⟩
      · refine .inl (kept (state_eq_some.mpr ⟨ref, before, ?_⟩))
        have bound := placed.refs key ref before
        rw [run, Memory.insert] at object
        simp only [evictLocked_objects] at object
        rwa [List.getElem?_append_left bound] at object
      · cases made
        rw [objects, List.getElem?_concat_length] at object
        cases object
        exact .inr ⟨band, start, rfl, absent, rfl⟩
  | budget ref | room ref | enter key' => exact .inl (kept found)
  | leave key' =>
    refine .inl (kept ?_)
    simp only [Section.run] at found
    split at found <;> exact found
  | forget key' =>
    have dropped : ([key'].foldl Memory.forget m).state key = some st' := found
    exact .inl (kept (Memory.forgetAll_state dropped))
  | observe _ _ | pauseKey _ _ | resumeKey _ => cases calm

lemma loaded_pausedUntil (band : Band) (start : ℚ) (now : Time) (pause : Option Time) :
    (loaded band start now pause).pausedUntil = pause.getD Time.zero := by
  cases pause <;> rfl

end

variable {s s₀ : Node} {key : Str} {till : Time}

lemma saved_put_other (val : Str) (other : ∀ key', key ≠ pauseField key') (key' : Str) :
    (s.put key val).saved key' = s.saved key' := by
  unfold Node.saved
  rw [Node.put_store, if_neg (other key').symm]

lemma saved_put_pause (s : Node) (key : Str) (t : Time) (key' : Str) :
    (s.put (pauseField key) (formatInt t.Unix)).saved key' = if key' = key then t.Unix else s.saved key' := by
  by_cases same : key' = key
  · subst same
    rw [if_pos rfl, Node.saved, Node.put_store, if_pos rfl]
    simp only [savedPause, parseInt_formatInt t.Unix_fits, Option.map_some, Option.getD_some]
    exact Time.Unix_ofUnix t.Unix_fits
  · rw [if_neg same, Node.saved, Node.put_store, if_neg fun equal => same (pauseField_inj equal)]
    rfl

structure Kin (s s' : Node) : Prop where
  agrees : s'.Agrees
  saved : ∀ key, s'.saved key = s.saved key

lemma calm_keeps {o : Options} {s' : Node} {e : Event calls} (calm : e.op.calm) (kin : Kin s₀ s)
    (served : Serves o false s e s') : Kin s₀ s' := by
  cases served with
  | now => exact ⟨⟨kin.agrees.placed, kin.agrees.same⟩, kin.saved⟩
  | got | other _ => exact kin
  | unread faulty | unwritten faulty | unheard faulty => cases faulty
  | @put _ key val =>
    refine ⟨⟨kin.agrees.placed, fun key' st found => ?_⟩, fun key' => ?_⟩
    · rw [saved_put_other val calm]
      exact kin.agrees.same key' st found
    · rw [saved_put_other val calm]
      exact kin.saved key'
  | @entered _ sec t got read =>
    refine ⟨⟨kin.agrees.placed.run o t got sec, fun key st' found => ?_⟩, kin.saved⟩
    rcases calm_state calm kin.agrees.placed found with ⟨st, before, -, same⟩ | ⟨band, start, rfl, -, rfl⟩
    · rw [same]
      exact kin.agrees.same key st before
    · rw [loaded_pausedUntil]
      obtain rfl : got = _ := read.resolve_right fun faulty => nomatch faulty.1
      rfl

structure Pending (s₀ : Node) (key : Str) (till : Time) (s : Node) : Prop where
  placed : s.memory.Placed
  others : ∀ key' st, key' ≠ key → s.memory.state key' = some st → st.pausedUntil.Unix = s₀.saved key'
  here : ∀ st, s.memory.state key = some st → st.pausedUntil = till
  saved : ∀ key', s.saved key' = s₀.saved key'

lemma Pending.tame {o : Options} {s' : Node} {e : Event calls} (tame : e.op.tame)
    (pending : Pending s₀ key till s) (served : Serves o false s e s') : Pending s₀ key till s' := by
  obtain ⟨placed, others, here, saved⟩ := pending
  cases served with
  | now => exact ⟨placed, others, here, saved⟩
  | got | other _ => exact ⟨placed, others, here, saved⟩
  | unread faulty | unwritten faulty | unheard faulty => cases faulty
  | @put _ field val =>
    exact ⟨placed, others, here, fun key' => (saved_put_other val tame key').trans (saved key')⟩
  | @entered _ sec t got read =>
    -- A section that loads nothing finds every state where it was.
    have before {key' : Str} {st' : MXState} (found : (s.enter o t got sec).memory.state key' = some st') :
        ∃ st, s.memory.state key' = some st ∧ st'.pausedUntil = st.pausedUntil := by
      rcases calm_state tame.1 placed found with ⟨st, old, -, same⟩ | ⟨band, start, rfl, -⟩
      · exact ⟨st, old, same⟩
      · cases tame.2
    refine ⟨placed.run o t got sec, fun key' st' other found => ?_, fun st' found => ?_, saved⟩
    · obtain ⟨st, old, same⟩ := before found
      rw [same]
      exact others key' st other old
    · obtain ⟨st, old, same⟩ := before found
      rw [same]
      exact here st old

lemma Pending.put (pending : Pending s₀ key till s) :
    (s.put (pauseField key) (formatInt till.Unix)).Agrees ∧
      ∀ key', (s.put (pauseField key) (formatInt till.Unix)).saved key' = if key' = key then till.Unix else s₀.saved key' := by
  have saved (key' : Str) : (s.put (pauseField key) (formatInt till.Unix)).saved key' =
      if key' = key then till.Unix else s₀.saved key' := by
    rw [saved_put_pause, pending.saved]
  refine ⟨⟨pending.placed, fun key' st found => ?_⟩, saved⟩
  rw [saved]
  split
  · rename_i same
    rw [pending.here st (same ▸ found)]
  · rename_i other
    exact pending.others key' st other found

/-- A step that sets a pause sets it no earlier than the one in force, and to a real time. -/
def Lasts (s : Node) (e : Event calls) (s' : Node) : Prop :=
  match e.op with
  -- `Observe` pauses at the floor of the band, for as long as the band says.
  | .locked (.observe key true) => ∀ st, s.memory.state key = some st → st.rate ≤ st.band.minRate →
      s.deadline key ≤ (s'.clock.Add st.band.pauseFor).Unix ∧ (s'.clock.Add st.band.pauseFor).IsZero = false
  | .locked (.pauseKey key till) => s.deadline key ≤ till.Unix
  | _ => True

/-- A store that does not fail, in runs where every pause that is set lasts. -/
def lasting (o : Options) : World calls Node := fun s e s' => Serves o false s e s' ∧ Lasts s e s'

structure Onward (s t : Node) : Prop where
  agrees : t.Agrees
  later : ∀ key, s.saved key ≤ t.saved key

lemma Kin.onward {t : Node} (kin : Kin s t) : Onward s t := ⟨kin.agrees, fun key => (kin.saved key).ge⟩

lemma Pending.onward (pending : Pending s₀ key till s)
    (lasts : s₀.saved key ≤ till.Unix) : Onward s₀ (s.put (pauseField key) (formatInt till.Unix)) := by
  obtain ⟨agrees, saved⟩ := pending.put
  refine ⟨agrees, fun key' => ?_⟩
  rw [saved]
  split
  · rename_i same
    rw [same]
    exact lasts
  · exact le_refl _

-- Nothing is left to save where the pause is the saved one.
lemma Pending.settled (pending : Pending s₀ key till s) (same : till.Unix = s₀.saved key) : Onward s₀ s := by
  refine ⟨⟨pending.placed, fun key' st found => ?_⟩, fun key' => (pending.saved key').ge⟩
  rw [pending.saved]
  by_cases equal : key' = key
  · subst equal
    rw [pending.here st found]
    exact same
  · exact pending.others key' st equal found

lemma observe_pausedUntil (st : MXState) (promote : Promotion) (now : Time) (throttled : Bool) :
    (st.observe promote now throttled).1.pausedUntil = st.pausedUntil ∨
    throttled = true ∧ st.rate ≤ st.band.minRate ∧
      (st.observe promote now throttled).1.pausedUntil = now.Add st.band.pauseFor := by
  cases throttled with
  | true =>
    simp only [MXState.observe, MXState.throttle, if_true]
    split
    · exact .inl rfl
    · rename_i floored
      exact .inr ⟨trivial, not_lt.mp floored, rfl⟩
  | false =>
    left
    simp only [MXState.observe, Bool.false_eq_true, if_false, MXState.weigh_pausedUntil, MXState.settle_pausedUntil,
      MXState.climb_pausedUntil]
    rfl

section
variable [Unicode] [Codec] {o : Options}

variable {s s₀ t : Node} {key : Str} {A : Type}

omit [Unicode] [Codec] in
lemma tame_pending {p : Act A} {till : Time} (only : p.Only Op.tame)
    (pending : Pending s₀ key till s) : p.Ensures (lasting o) (fun _ s' => Pending s₀ key till s') s :=
  only.ensures (fun _ _ _ tame pending answered => pending.tame tame answered.1) pending

omit [Unicode] [Codec] in
lemma calm_onward {p : Act A} (only : p.Only Op.calm) (agrees : s.Agrees) :
    p.Ensures (lasting o) (fun _ s' => Onward s s') s := by
  have kept : p.Ensures (lasting o) (fun _ s' => Kin s s') s :=
    only.ensures (fun _ _ _ calm kin answered => calm_keeps calm kin answered.1) ⟨agrees, fun _ => rfl⟩
  exact kept.mono fun _ _ kin => kin.onward

omit [Unicode] in
lemma persist_onward {st : MXState} (pending : Pending s₀ key st.pausedUntil s)
    (lasts : s₀.saved key ≤ st.pausedUntil.Unix)
    (unset : st.pausedUntil.IsZero = true → st.pausedUntil.Unix = s₀.saved key) :
    (persist key st).Ensures (lasting o) (fun _ s' => Onward s₀ s') s := by
  have saves {field : String} {val : Str} {f : Except Str Unit → Act Unit} {s : Node}
      (other : (lit field).getLast? ≠ some 108) (filled : lit field ≠ [])
      (pending : Pending s₀ key st.pausedUntil s)
      (rest : ∀ a s', Pending s₀ key st.pausedUntil s' → (f a).Ensures (lasting o) (fun _ s' => Onward s₀ s') s') :
      (set (runtimeKey key field) val >>= f).Ensures (lasting o) (fun _ s' => Onward s₀ s') s := by
    have only : (set (runtimeKey key field) val).Only Op.tame :=
      (Prog.only_ask _).mpr fun key' => runtimeKey_ne_pauseField key key' other filled
    exact (tame_pending only pending).andThen rest
  unfold persist
  refine saves (by decide) (by decide) pending fun _ s₁ pending => ?_
  refine saves (by decide) (by decide) pending fun _ s₂ pending => ?_
  refine saves (by decide) (by decide) pending fun _ s₃ pending => ?_
  split
  · intro a s' answered
    cases answered.1 with
    | put => exact pending.onward lasts
    | unwritten faulty | unheard faulty => cases faulty
    | other elsewhere => cases elsewhere
  · rename_i zero
    exact pending.settled (unset (by simpa using zero))

omit [Unicode] [Codec] in
-- The object of the key alone is written to.
lemma pending_write {ref : Nat} {st' : MXState} {now : Time} {history : List Observation}
    (agrees : s.Agrees) (tracked : s.memory.mx.lookup key = some ref) (placed : (s.memory.write ref st').Placed) :
    Pending s key st'.pausedUntil { s with memory := s.memory.write ref st', clock := now, history } := by
  refine ⟨placed, fun key' st other found => ?_, fun st found => ?_, fun _ => rfl⟩
  · rw [Memory.state_write agrees.placed tracked, if_neg other] at found
    exact agrees.same key' st found
  · rw [Memory.state_write agrees.placed tracked, if_pos rfl] at found
    cases found
    rfl

lemma publish_onward {st : MXState} (paused propose : Bool)
    (pending : Pending s₀ key st.pausedUntil s) (lasts : s₀.saved key ≤ st.pausedUntil.Unix)
    (unset : st.pausedUntil.IsZero = true → st.pausedUntil.Unix = s₀.saved key) :
    (do
      if paused ∧ o.metrics then countPause key
      if propose then proposeBand o key st
      persist key st : Act Unit).Ensures (lasting o) (fun _ s' => Onward s₀ s') s := by
  have persists {s : Node} (pending : Pending s₀ key st.pausedUntil s) :
      (persist key st).Ensures (lasting o) (fun _ s' => Onward s₀ s') s :=
    persist_onward pending lasts unset
  have proposes {s : Node} (pending : Pending s₀ key st.pausedUntil s) : (do
      if propose then proposeBand o key st
      persist key st : Act Unit).Ensures (lasting o) (fun _ s' => Onward s₀ s') s := by
    cases propose with
    | false => exact persists pending
    | true => exact (tame_pending (proposeBand_tame o key st) pending).andThen fun _ _ pending => persists pending
  by_cases counts : paused ∧ o.metrics
  · have counted : (countPause key).Only Op.tame := (Prog.only_ask _).mpr trivial
    simp only [counts, and_self, if_true]
    exact (tame_pending counted pending).andThen fun _ _ pending => proposes pending
  · simp only [counts, if_false]
    exact proposes pending

lemma Observe_onward (mxHost : Str) (throttled : Bool) (agrees : s.Agrees) :
    (Observe o mxHost throttled).Ensures (lasting o) (fun _ s' => Onward s s') s := by
  intro seen s' answered
  obtain ⟨served, lasts⟩ := answered
  cases served with
  | other elsewhere => cases elsewhere
  | @entered _ _ now got read =>
    have placed := agrees.placed.run o now got (.observe (PaceKey mxHost) throttled)
    have untouched {history : List Observation} : Onward s { s with clock := now, history } :=
      ⟨⟨agrees.placed, agrees.same⟩, fun _ => le_refl _⟩
    simp only [Node.enter, Section.run] at placed ⊢
    cases tracked : s.memory.mx.lookup (PaceKey mxHost) with
    | none => exact untouched
    | some ref =>
      cases object : s.memory.objects[ref]? with
      | none =>
        simp only [object]
        exact untouched
      | some st =>
        simp only [tracked, object] at placed ⊢
        have found : s.memory.state (PaceKey mxHost) = some st := state_eq_some.mpr ⟨ref, tracked, object⟩
        have same := agrees.same _ st found
        have moves : (st.observe o.promote now throttled).1.pausedUntil.Unix = s.saved (PaceKey mxHost) ∨
            s.saved (PaceKey mxHost) ≤ (st.observe o.promote now throttled).1.pausedUntil.Unix ∧
              (st.observe o.promote now throttled).1.pausedUntil.IsZero = false := by
          rcases observe_pausedUntil st o.promote now throttled with still | ⟨rfl, floored, set⟩
          · rw [still]
            exact .inl same
          · have longer := lasts st found floored
            rw [agrees.deadline] at longer
            rw [set]
            exact .inr longer
        generalize st.observe o.promote now throttled = observed at placed moves ⊢
        obtain ⟨snapshot, paused, propose⟩ := observed
        apply publish_onward paused propose (pending_write agrees tracked placed)
        · exact moves.elim (fun same => same.ge) fun longer => longer.1
        · intro zero
          rcases moves with same | ⟨-, set⟩
          · exact same
          · cases set.symm.trans zero

omit [Codec] in
lemma PauseKey_onward (mxHost : Str) (till : Time) (agrees : s.Agrees) :
    (PauseKey o mxHost till).Ensures (lasting o) (fun _ s' => Onward s s') s := by
  intro seen s' answered
  obtain ⟨served, lasts⟩ := answered
  cases served with
  | other elsewhere => cases elsewhere
  | @entered _ _ now got read =>
    change s.deadline (PaceKey mxHost) ≤ till.Unix at lasts
    rw [agrees.deadline] at lasts
    have pending : Pending s (PaceKey mxHost) till (s.enter o now got (.pauseKey (PaceKey mxHost) till)) := by
      have placed := agrees.placed.run o now got (.pauseKey (PaceKey mxHost) till)
      simp only [Node.enter, Section.run] at placed ⊢
      cases tracked : s.memory.mx.lookup (PaceKey mxHost) with
      | none =>
        refine ⟨agrees.placed, fun key st _ => agrees.same key st, fun st found => ?_, fun _ => rfl⟩
        obtain ⟨ref, tracked', -⟩ := state_eq_some.mp found
        cases tracked.symm.trans tracked'
      | some ref =>
        have bound := agrees.placed.refs _ ref tracked
        have object := List.getElem?_eq_getElem bound
        simp only [tracked, Option.elim_some, object] at placed ⊢
        exact pending_write agrees tracked placed
    have saves {s' : Node} (pending : Pending s (PaceKey mxHost) till s') :
        (set (pauseField (PaceKey mxHost)) (formatInt till.Unix)).Ensures (lasting o) (fun _ s' => Onward s s') s' := by
      intro a s'' answered
      cases answered.1 with
      | put => exact pending.onward lasts
      | unwritten faulty | unheard faulty => cases faulty
      | other elsewhere => cases elsewhere
    change (if o.metrics then _ else _ : Act _).Ensures _ _ _
    split
    · have counted : (countPause (PaceKey mxHost)).Only Op.tame := (Prog.only_ask _).mpr trivial
      exact (tame_pending counted pending).andThen fun _ _ pending => saves pending
    · exact saves pending

omit [Unicode] [Codec] in
lemma ask_calm {op : Op} {f : op.Answer → Act A} (rest : ∀ a, (f a).Only Op.calm)
    (fine : op.calm := by first | exact trivial | exact rfl) : (Prog.ask (I := calls) op >>= f).Only Op.calm :=
  .bind ((Prog.only_ask _).mpr fine) rest

lemma stateFor_calm (key domain : Str) : (stateFor key domain).Only Op.calm := by
  refine ask_calm fun found => ?_
  cases found with
  | some ref => exact Prog.only_pure _
  | none =>
    refine .bind (ask_calm fun _ => Prog.only_pure _) fun band => ?_
    refine .bind (ask_calm fun _ => Prog.only_pure _) fun saved => ?_
    exact (Prog.only_ask _).mpr rfl

lemma Acquire_calm (fuel : Nat) (mxHost domain : Str) : (Acquire fuel mxHost domain).Only Op.calm := by
  refine .bind (stateFor_calm _ _) fun ref => ask_calm fun budget => ?_
  rcases budget with _ | till | ⟨rate, burst⟩
  · exact Prog.only_pure _
  · exact Prog.only_pure _
  · exact (takeToken_tame _ _ _ _).mono tame_calm

lemma AcquireSession_calm (fuel : Nat) (mxHost domain : Str) : (AcquireSession o fuel mxHost domain).Only Op.calm := by
  unfold AcquireSession
  dsimp only
  split
  · exact Prog.only_pure _
  · refine .bind (stateFor_calm _ _) fun ref => ask_calm fun room => ?_
    rcases room with _ | till | limit
    · exact Prog.only_pure _
    · exact Prog.only_pure _
    · exact ask_calm fun start => (takeLease_tame _ _ _ _ _ _).mono tame_calm

def Call.resumes : Call → Bool
  | .resumeKey _ => true
  | _ => false

lemma call_onward {call : Call} (kept : call.resumes = false) (agrees : s.Agrees) :
    (call.prog o).Ensures (lasting o) (fun _ s' => Onward s s') s := by
  have discards {A : Type} {p : Act A} (ensured : p.Ensures (lasting o) (fun _ s' => Onward s s') s) :
      (Functor.discard p).Ensures (lasting o) (fun _ s' => Onward s s') s :=
    ensured.andThen fun _ _ onward => onward
  cases call with
  | acquire fuel mxHost domain => exact discards (calm_onward (Acquire_calm fuel mxHost domain) agrees)
  | acquireSession fuel mxHost domain => exact discards (calm_onward (AcquireSession_calm fuel mxHost domain) agrees)
  | release key id => exact calm_onward (ask_calm fun _ => ask_calm fun _ => Prog.only_pure _) agrees
  | observe mxHost throttled => exact Observe_onward mxHost throttled agrees
  | pauseKey mxHost till => exact discards (PauseKey_onward mxHost till agrees)
  | resumeKey mxHost => cases kept
  | promote mxHost => exact discards (calm_onward ((Promote_tame mxHost).mono tame_calm) agrees)

variable (o) in
/-- What may come next where one call is made at a time and none resumes a key. -/
inductive Sequel (W : World calls Node) : Node → Node → Prop where
  | call {s t : Node} {call : Call} {tr : Trace calls} : call.resumes = false →
      Runs W (call.prog o) s tr (.done ()) t → Sequel W s t
  | evict {s : Node} (keys : List Str) : Sequel W s (s.drop keys)
  | restart {s : Node} : Sequel W s { s with memory := {} }

omit [Unicode] [Codec] in
lemma Onward.trans {u : Node} (first : Onward s t) (second : Onward t u) : Onward s u :=
  ⟨second.agrees, fun key => (first.later key).trans (second.later key)⟩

lemma Sequel.onward (agrees : s.Agrees) (step : Sequel o (lasting o) s t) : Onward s t := by
  cases step with
  | call kept run => exact (call_onward kept agrees).result run
  | evict keys =>
    refine ⟨⟨agrees.placed.forgetAll keys, fun key st found => ?_⟩, fun _ => le_refl _⟩
    exact agrees.same key st (Memory.forgetAll_state found)
  | restart =>
    refine ⟨⟨⟨fun key ref found => ?_, fun key key' ref found => ?_⟩, fun key st found => ?_⟩, fun _ => le_refl _⟩
    · cases (AList.lookup_empty key).symm.trans found
    · cases (AList.lookup_empty key).symm.trans found
    · cases (show Memory.state {} key = none from rfl).symm.trans found

lemma sequels_onward (agrees : s.Agrees) (run : ReflTransGen (Sequel o (lasting o)) s t) : Onward s t := by
  induction run with
  | refl => exact ⟨agrees, fun _ => le_refl _⟩
  | tail _ step ih => exact ih.trans (step.onward ih.agrees)

def booted (store : Str → Option Str) (clock : Time) : Node := { store, clock }

omit [Unicode] [Codec] in
lemma booted_agrees (store : Str → Option Str) (clock : Time) : (booted store clock).Agrees := by
  refine ⟨⟨fun key ref found => ?_, fun key key' ref found => ?_⟩, fun key st found => ?_⟩
  · cases (AList.lookup_empty key).symm.trans found
  · cases (AList.lookup_empty key).symm.trans found
  · cases (show Memory.state {} key = none from rfl).symm.trans found

/-- Where every pause that is set lasts at least as long as the one in force, no deadline
ever moves to an earlier second. -/
theorem deadline_onward {store : Str → Option Str} {clock : Time} {s t : Node}
    (before : ReflTransGen (Sequel o (lasting o)) (booted store clock) s)
    (run : ReflTransGen (Sequel o (lasting o)) s t) (key : Str) : s.deadline key ≤ t.deadline key := by
  have agrees := (sequels_onward (booted_agrees store clock) before).agrees
  have onward := sequels_onward agrees run
  rw [agrees.deadline, onward.agrees.deadline]
  exact onward.later key

lemma sequel_performs (faults : Bool) {call : Call} (kept : call.resumes = false) (s : Node) :
    Sequel o (Serves o faults) s (performed o [call] s) :=
  .call kept (Prog.play_runs (fun s => s) (standing_serves o faults) (call.prog o) s)

lemma sequels_perform (faults : Bool) {cs : List Call} (kept : ∀ call ∈ cs, call.resumes = false) (s : Node) :
    ReflTransGen (Sequel o (Serves o faults)) s (performed o cs s) := by
  induction cs generalizing s with
  | nil => exact .refl
  | cons call more ih =>
    rw [List.forall_mem_cons] at kept
    exact .head (sequel_performs faults kept.1 s) (ih kept.2 _)

end

/-- An hour of pause outlives a restart. -/
theorem hour_outlives_restart : ∃ s t,
    ReflTransGen (Sequel {} (lasting {})) (booted (fun _ => none) (Time.ofUnix 0)) s ∧
    ReflTransGen (Sequel {} (lasting {})) s t ∧ t.memory = {} ∧
    s.deadline (lit "mx.test") = 3600 ∧ 3600 ≤ t.deadline (lit "mx.test") := by
  have lasts : (booted (fun _ => none) (Time.ofUnix 0)).deadline (lit "mx.test") ≤ (Time.ofUnix 3600).Unix := by
    decide +kernel
  have pauses : Sequel {} (lasting {}) (booted (fun _ => none) (Time.ofUnix 0))
      (performed {} [.pauseKey (lit "mx.test") (Time.ofUnix 3600)] (booted (fun _ => none) (Time.ofUnix 0))) :=
    .call (show (Call.pauseKey (lit "mx.test") (Time.ofUnix 3600)).resumes = false from rfl)
      (.next ⟨.entered (.inl rfl), lasts⟩ (.next ⟨.put, trivial⟩ .stop))
  have paused : (performed {} [.pauseKey (lit "mx.test") (Time.ofUnix 3600)]
      (booted (fun _ => none) (Time.ofUnix 0))).deadline (lit "mx.test") = 3600 := by decide +kernel
  refine ⟨_, _, .single pauses, .single .restart, rfl, paused, ?_⟩
  rw [← paused]
  exact deadline_onward (.single pauses) (.single .restart) _

-- One key, throttled to the floor of its band and then paused for two hours.
def toFloor : List Call :=
  [.acquire 1 (lit "mx.test") [], .observe (lit "mx.test") true, .observe (lit "mx.test") true,
    .observe (lit "mx.test") true, .pauseKey (lit "mx.test") (Time.ofUnix 7200)]

def floored : Node := performed {} toFloor (booted (fun _ => none) (Time.ofUnix 0))

/-- The next throttle makes it ten minutes. -/
theorem throttle_shortens :
    ReflTransGen (Sequel {} (Serves {} false)) (booted (fun _ => none) (Time.ofUnix 0)) floored ∧
    Sequel {} (Serves {} false) floored (performed {} [.observe (lit "mx.test") true] floored) ∧
    floored.deadline (lit "mx.test") = 7200 ∧
    (performed {} [.observe (lit "mx.test") true] floored).deadline (lit "mx.test") = 600 := by
  have kept : ∀ call ∈ toFloor, call.resumes = false := by decide
  refine ⟨sequels_perform false kept _, sequel_performs false rfl _, ?_, ?_⟩
  · decide +kernel
  · decide +kernel

end EmailVerifier.Pacer
