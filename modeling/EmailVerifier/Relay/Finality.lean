import EmailVerifier.Relay.Uniqueness

/-! Whether a message is tried again after its final answer.

A permanent refusal and a domain that takes no mail both lead to `Retry`, which schedules
the message like any other until it has been tried often enough. So the answer is final
only where it came at the last attempt.
-/

set_option autoImplicit false

namespace EmailVerifier.Relay
open Text Data Semantics

section
variable [Library]

/-- The condition on a step: a final answer comes at the last of `n` attempts. -/
def LastTry (n : Int) : Condition calls Grip Shared := fun _ _ g e _ => final e = true → n ≤ g.attempts + 1

/-- The relays of a domain that allow `n` attempts at most. -/
def boundedRelays [Unicode] (domain : Str) (n : Int) : Rules calls Returned Shared :=
  { relays domain with
    job := fun p => ∃ o : Options, o.domain = domain ∧ o.queue.maxAttempts ≤ n ∧ (p = draining o ∨ ∃ m, p = taking o m) }

/-- The id of a message that had its final answer may come into no hand again. -/
structure Barred (s : Shared) (running : List Grip) (id : Str) : Prop where
  issued : id ∈ s.issued
  ready : id ∉ s.store.ready
  later : id ∉ s.store.later.map Prod.snd
  drawn : ∀ g ∈ running, g.drawn ≠ some id
  held : ∀ g ∈ running, g.held = some id → id ∈ g.answered

structure Closed (n : Int) (s : Shared) (running gone : List Grip) : Prop where
  single : Single s running gone
  last : ∀ g ∈ running, g.answered ≠ [] → n ≤ g.attempts + 1
  barred : ∀ g ∈ running ++ gone, ∀ id ∈ g.answered, Barred s running id

variable {n : Int} {g : Grip} {s s' : Shared} {e : Event calls} {before after gone : List Grip}

lemma Barred.act {id : Str} (barred : Barred s (before ++ g :: after) id) (sane : g.astray = false)
    (last : g.answered ≠ [] → n ≤ g.attempts + 1) (may : g.mayDo (some n) e.op) (served : Serve s e s')
    (issued : s.issued ⊆ s'.issued) : Barred s' (before ++ g.note e :: after) id := by
  have goes := Grip.Goes.of_serve (g := g) served
  have here : g ∈ before ++ g :: after := mem_here
  have grows : g.answered ⊆ (g.note e).answered := by
    rcases goes.answered with same | ⟨-, same⟩
    · rw [same]
      exact List.Subset.refl _
    · rw [same]
      exact List.subset_append_right _ _
  refine ⟨issued barred.issued, fun there => ?_, fun there => ?_, fun h member drawn => ?_, fun h member held => ?_⟩
  · rcases served.mem_ready there with old | pushes
    · exact barred.ready old
    · rw [pushes] at may
      obtain ⟨has, open_⟩ := may sane
      rcases has with held | ⟨-, drawn⟩
      · have answered := barred.held g here held
        rw [open_] at answered
        cases answered
      · exact barred.drawn g here drawn
  · obtain ⟨entry, found, rfl⟩ := List.mem_map.mp there
    rcases served.mem_later found with old | schedules
    · exact barred.later (List.mem_map_of_mem old)
    · rw [schedules] at may
      obtain ⟨held, -, few⟩ := may sane
      have enough := last (List.ne_nil_of_mem (barred.held g here held))
      have few := few n rfl
      omega
  · rcases mem_exchanged g member with rfl | old
    · rcases goes.drawn id drawn with old | fresh
      · exact barred.drawn g here old
      · exact fresh barred.issued
    · exact barred.drawn h old drawn
  · rcases mem_exchanged g member with rfl | old
    · rcases goes.held id held with held | ready | later
      · exact grows (barred.held g here held)
      · exact absurd ready barred.ready
      · exact absurd later barred.later
    · exact barred.held h old held

lemma Single.barred {id : Str} (single : Single s (before ++ g :: after) gone) (held : g.held = some id) :
    Barred s (before ++ g.answer :: after) id := by
  obtain ⟨nowhere, undrawn, alone⟩ := single.held_only held
  obtain ⟨ready, later, -⟩ := Store.listings_eq_zero nowhere
  have known : id ∈ s.issued := by
    apply single.issued
    rw [total_split, Grip.keeps_held held]
    omega
  have own : id ∈ g.answer.answered := by simp [Grip.answer, held]
  refine ⟨known, ready, later, fun h member => ?_, fun h member held => ?_⟩
  · rcases mem_middle.mp member with rfl | other
    · exact undrawn
    · exact (alone h other).2
  · rcases mem_middle.mp member with rfl | other
    · exact own
    · exact absurd held (alone h other).1

lemma Closed.act (closed : Closed n s (before ++ g :: after) gone) (may : g.mayDo (some n) e.op)
    (served : Serve s e s') (fair : final e = true → n ≤ g.attempts + 1) :
    Closed n s' (before ++ g.note e :: after) gone := by
  have here : g ∈ before ++ g :: after := mem_here
  have sane := closed.single.sane g here
  have goes := Grip.Goes.of_serve (g := g) served
  have shifts := Shifts.of_serve sane closed.single.sound may served
  have attempts (asked : g.answered ≠ []) : (g.note e).attempts = g.attempts := by
    rcases goes.attempts with same | ⟨id, gets⟩
    · exact same
    · rw [gets] at may
      exact absurd (may sane).2 asked
  have barred {id : Str} (old : Barred s (before ++ g :: after) id) : Barred s' (before ++ g.note e :: after) id :=
    old.act sane (closed.last g here) may served shifts.issued
  refine ⟨closed.single.act shifts, fun h member asked => ?_, fun h member id answered => ?_⟩
  · rcases mem_exchanged g member with rfl | old
    · rcases goes.answered with same | ⟨last, same⟩
      · rw [same] at asked
        rw [attempts asked]
        exact closed.last g here asked
      · rw [same]
        exact fair last
    · exact closed.last h old asked
  · simp only [List.mem_append, List.mem_cons] at member
    rcases member with (old | rfl | old) | old
    · exact barred (closed.barred h (by simp [old]) id answered)
    · rcases goes.answered with same | ⟨last, same⟩
      · rw [same] at answered
        exact barred (closed.barred g (by simp) id answered)
      · rw [same] at answered
        rcases List.mem_append.mp answered with now | old
        · have held : g.held = some id := by simpa using now
          rw [same, served.final last]
          exact closed.single.barred held
        · exact barred (closed.barred g (by simp) id old)
    · exact barred (closed.barred h (by simp [old]) id answered)
    · exact barred (closed.barred h (by simp [old]) id answered)

omit [Library] in
lemma Barred.among {running running' : List Grip} {id : Str} (barred : Barred s running id)
    (known : ∀ h ∈ running', h = {} ∨ h ∈ running) : Barred s running' id := by
  refine ⟨barred.issued, barred.ready, barred.later, fun h member => ?_, fun h member held => ?_⟩
  · rcases known h member with rfl | old
    · nofun
    · exact barred.drawn h old
  · rcases known h member with rfl | old
    · cases held
    · exact barred.held h old held

lemma Closed.join {running : List Grip} (closed : Closed n s running gone) :
    Closed n s (running ++ [({} : Grip)]) gone := by
  have known (h : Grip) (member : h ∈ running ++ [({} : Grip)]) : h = {} ∨ h ∈ running := by
    simp only [List.mem_append, List.mem_singleton] at member
    exact member.symm
  refine ⟨closed.single.join, fun h member asked => ?_, fun h member id answered => ?_⟩
  · rcases known h member with rfl | old
    · exact absurd rfl asked
    · exact closed.last h old asked
  · rcases List.mem_append.mp member with member | left
    · rcases known h member with rfl | old
      · cases answered
      · exact (closed.barred h (List.mem_append_left _ old) id answered).among known
    · exact (closed.barred h (List.mem_append_right _ left) id answered).among known

lemma Closed.leave (closed : Closed n s (before ++ g :: after) gone) : Closed n s (before ++ after) (gone ++ [g]) := by
  refine ⟨closed.single.leave, fun h member => closed.last h (mem_stays member), fun h member id answered => ?_⟩
  exact (closed.barred h (mem_leaves.mp member) id answered).among fun h member => .inr (mem_stays member)

lemma relays_closed [Unicode] (domain : Str) (n : Int) :
    Keeping (boundedRelays domain n) (fun g e => g.mayDo (some n) e.op) Grip.note {} (LastTry n) (fun _ _ => True) (Closed n) where
  join _ _ _ := .join
  act _ _ _ _ _ _ _ closed may served fair := closed.act may served fair
  leave _ _ _ _ _ held _ := held.leave
  drift pool s' running gone ticks closed := by
    obtain ⟨clock, rfl⟩ := ticks
    refine ⟨closed.single.ticks ⟨clock, rfl⟩, closed.last, fun h member id answered => ?_⟩
    have barred := closed.barred h member id answered
    exact ⟨barred.issued, barred.ready, barred.later, barred.drawn, barred.held⟩

def dialling {A : Type} : Act A → Bool
  | .perform (.dialContext _ _) _ => true
  | _ => false

/-- A final answer that comes at the last attempt is the end: the id is on no list `Next`
reads, the only process that may still have it in hand is the one that got the answer, and
no process opens a connection with it. -/
theorem final_answer_ends [Unicode] {domain : Str} {pool : Relays}
    (reached : Pool.ReachesIf (boundedRelays domain n) Grip.note {} (LastTry n) empty pool) {did : Trace calls}
    (there : did ∈ pool.traces) {id : Str} (answered : id ∈ (gripOf did).answered) :
    id ∉ pool.shared.store.ready ∧ id ∉ pool.shared.store.later.map Prod.snd ∧
      ∀ proc ∈ pool.running, (gripOf proc.did).held = some id →
        id ∈ (gripOf proc.did).answered ∧ dialling proc.rest = false := by
  have jobs (p : Act Returned) (job : (boundedRelays domain n).job p) : p.Follows (Clasp (some n)) (fun _ _ => True) {} := by
    obtain ⟨o, -, bound, rfl | ⟨m, rfl⟩⟩ := job
    · apply draining_clasp
      rintro _ ⟨⟩
      exact bound
    · exact taking_clasp
  have start : Closed n {} [] [] := ⟨Single.empty, nofun, nofun⟩
  obtain ⟨orderly, closed⟩ := (relays_closed domain n).reached jobs empty_orderly start reached
  have grip : gripOf did ∈ pool.hands Grip.note {} ++ pool.left Grip.note {} := by
    have listed := List.mem_map_of_mem (f := gripOf) there
    simpa [Pool.traces, Pool.hands, Pool.left, gripOf, Function.comp_def] using listed
  have barred := closed.barred _ grip id answered
  refine ⟨barred.ready, barred.later, fun proc runs held => ?_⟩
  have hand : gripOf proc.did ∈ pool.hands Grip.note {} := List.mem_map_of_mem (f := fun p => gripOf p.did) runs
  have own := barred.held _ hand held
  refine ⟨own, ?_⟩
  obtain ⟨did, rest⟩ := proc
  cases rest with
  | done _ => rfl
  | perform o next =>
    cases o with
    | dialContext network address =>
      obtain ⟨_, ⟨allowed, -⟩, -⟩ := orderly.running _ runs (.error (errorsNew ""))
      have open_ : (gripOf did).answered = [] := allowed (closed.single.sane _ hand)
      rw [open_] at own
      cases own
    | _ => rfl

end

-- Every attempt is refused for good.
def refusing : Player calls Shared := fun s o =>
  match o with
  | .send _ _ => ({ permanent := true, code := 550 }, s)
  | o => redis s o

lemma refusing_serves (s : Shared) (o : Op) : Serve s ⟨o, (refusing s o).1⟩ (refusing s o).2 := by
  cases o with
  | send conn options => exact .other s _ rfl
  | _ => exact redis_serves s _

def onceOnly : Options := new { queue := newQueue 1, domain := lit "node.test" }

def acceptedOnce : Relays :=
  let run := (taking onceOnly oneMessage).play refusing {}
  { shared := run.2.2, gone := [(run.1, some run.2.1)] }

-- The only attempt that is allowed is refused.
def buriedOnce : Relays :=
  let run := (draining onceOnly).play refusing acceptedOnce.shared
  { shared := run.2.2, gone := acceptedOnce.gone ++ [(run.1, some run.2.1)] }

/-- A message that may be tried once and is refused. -/
theorem buriedOnce_ends : ∃ did ∈ buriedOnce.traces, oneID ∈ (gripOf did).answered ∧
    oneID ∉ buriedOnce.shared.store.ready ∧ oneID ∉ buriedOnce.shared.store.later.map Prod.snd ∧
      ∀ proc ∈ buriedOnce.running, (gripOf proc.did).held = some oneID →
        oneID ∈ (gripOf proc.did).answered ∧ dialling proc.rest = false := by
  have admits (s : Shared) (o : Op) : (boundedRelays (lit "node.test") 1).minding (LastTry 1) []
      s ⟨o, (refusing s o).1⟩ (refusing s o).2 :=
    ⟨refusing_serves s o, fun _ => trivial, fun h _ => by omega⟩
  have accepted : Pool.ReachesIf (boundedRelays (lit "node.test") 1) Grip.note {} (LastTry 1) empty acceptedOnce :=
    .returns rfl ⟨onceOnly, rfl, by decide, .inr ⟨oneMessage, rfl⟩⟩
      (Prog.play_runs (fun s : Shared => s) admits (taking onceOnly oneMessage) {})
  have refused : Pool.ReachesIf (boundedRelays (lit "node.test") 1) Grip.note {} (LastTry 1) acceptedOnce buriedOnce :=
    .returns rfl ⟨onceOnly, rfl, by decide, .inl rfl⟩
      (Prog.play_runs (fun s : Shared => s) admits (draining onceOnly) acceptedOnce.shared)
  have answered : ∃ did ∈ buriedOnce.traces, oneID ∈ (gripOf did).answered := by decide +kernel
  obtain ⟨did, there, answered⟩ := answered
  exact ⟨did, there, answered, final_answer_ends (accepted.trans refused) there answered⟩

-- The first of five attempts is refused, and the retry waits for its time.
def refusedOne : Relays :=
  let run := (draining oneRelay).play refusing acceptedOne.shared
  { shared := run.2.2, gone := acceptedOne.gone ++ [(run.1, some run.2.1)] }

def waitedOne : Relays := { refusedOne with shared := { refusedOne.shared with clock := 300 * second } }

-- Five minutes on, another drainer is at the point of connecting.
def askedAgain : Relays :=
  let cut := (draining oneRelay).playFor redis 12 waitedOne.shared
  { shared := cut.2.2, running := [⟨cut.1, cut.2.1⟩], gone := refusedOne.gone }

/-- A message that was refused with 550 is taken from the queue and tried again. -/
theorem refused_asked_again : Pool.Reaches (relays (lit "node.test")) empty askedAgain ∧
    (∃ did ∈ askedAgain.gone.map Prod.fst, oneID ∈ (gripOf did).answered) ∧
    ∃ proc ∈ askedAgain.running, (gripOf proc.did).held = some oneID ∧ oneID ∉ (gripOf proc.did).answered ∧
      dialling proc.rest = true := by
  have refused : Pool.Reaches (relays (lit "node.test")) acceptedOne refusedOne :=
    Pool.Reaches.returns ⟨oneRelay, rfl, .inl rfl⟩
      (Prog.play_runs (W := fun s e s' => Serve s e s' ∧ ∀ _ : Trace calls, True) (fun s : Shared => s)
        (fun s o => ⟨refusing_serves s o, fun _ => trivial⟩) (draining oneRelay) acceptedOne.shared)
  have waited : Pool.Reaches (relays (lit "node.test")) refusedOne waitedOne := .single (.drift ⟨300 * second, rfl⟩)
  have asked : Pool.Reaches (relays (lit "node.test")) waitedOne askedAgain :=
    Pool.Reaches.starts ⟨oneRelay, rfl, .inl rfl⟩ (Prog.playFor_runs redis_admits 12 (draining oneRelay) waitedOne.shared)
  refine ⟨((acceptedOne_made.trans refused).trans waited).trans asked, ?_, ?_⟩
  · decide +kernel
  · decide +kernel

end EmailVerifier.Relay
