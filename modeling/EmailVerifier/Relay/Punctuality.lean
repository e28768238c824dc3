import EmailVerifier.Relay.Uniqueness

/-! Whether a retry waits for its time.

A drainer takes the ids it once read as due off `relay:later` whatever their scores are by
then. It pushes an id too early when another drainer has tried and scheduled the message
again in between, and only then.
-/

set_option autoImplicit false

namespace EmailVerifier.Relay
open Text Data Semantics

/-- The relays with a record of when each id is due by the latest `ZADD` that took effect. -/
structure Diary where
  shared : Shared := {}
  due : Str → Option Int := fun _ => none

def Diary.schedule (d : Diary) (due : Int) (id : Str) : Diary where
  shared := d.shared.after (.zadd due id)
  due := Function.update d.due id (some due)

lemma Diary.schedule_self (d : Diary) (due : Int) (id : Str) : (d.schedule due id).due id = some due :=
  Function.update_self ..

lemma Diary.schedule_other (d : Diary) (due : Int) {id id' : Str} (apart : id' ≠ id) :
    (d.schedule due id).due id' = d.due id' :=
  Function.update_of_ne apart ..

inductive Schedules : World calls Diary where
  | effective (d : Diary) (due : Int) (id : Str) (answer : Except Err Unit) :
      Schedules d ⟨.store (.zadd due id), answer⟩ (d.schedule due id)
  | lost (d : Diary) (due : Int) (id : Str) (err : Err) : Schedules d ⟨.store (.zadd due id), .error err⟩ d
  | other (d : Diary) (e : Event calls) (s : Shared) : (∀ due id, e.op ≠ .store (.zadd due id)) →
      Serve d.shared e s → Schedules d e { d with shared := s }

lemma Schedules.serve {d d' : Diary} {e : Event calls} (scheduled : Schedules d e d') : Serve d.shared e d'.shared := by
  cases scheduled with
  | effective _ due id answer =>
    cases answer with
    | error err => exact .unheard _ _ err
    | ok reply => exact .done _ (.zadd due id)
  | lost _ due id err => exact .lost _ _ err
  | other _ _ _ _ served => exact served

-- The one clock never goes back.
def Passes (d d' : Diary) : Prop :=
  ∃ clock, d.shared.clock ≤ clock ∧ d' = { d with shared := { d.shared with clock } }

section
variable [Unicode] [Library]

def timedRelays (domain : Str) : Rules calls Returned Diary where
  world := Schedules
  job := Job domain
  drift pool d' := Passes pool.shared d'

end

abbrev TimedRelays := Pool calls Returned Diary

def noneYet : TimedRelays := { shared := {} }

/-- The condition on a step: an id is scheduled only while no other process has it on the
list of what it read as due. -/
def Unclaimed : Condition calls Grip Diary :=
  fun others _ _ e _ => ∀ due id, e.op = .store (.zadd due id) → ∀ h ∈ others, id ∉ h.due

lemma unix_mono {a b : Int} (le : a ≤ b) : unix a ≤ unix b := Int.ediv_le_ediv (by decide) le

section
variable {s s' : Shared} {e : Event calls}

lemma Serve.clock (served : Serve s e s') : s'.clock = s.clock := by
  cases served <;> rfl

lemma Serve.later_kept (served : Serve s e s') {entry : Int × Str} (there : entry ∈ s.store.later)
    (other : ∀ due id, e.op ≠ .store (.zadd due id)) : entry ∈ s'.store.later ∨ e.op = .store (.zrem entry.2) := by
  have ran (c : Cmd) (other : ∀ due id, c ≠ .zadd due id) : entry ∈ (c.run s.store).2.later ∨ c = .zrem entry.2 := by
    cases c with
    | zadd due id => exact absurd rfl (other due id)
    | zrem id =>
      by_cases same : entry.2 = id
      · exact .inr (by rw [same])
      · exact .inl (List.mem_filter.mpr ⟨there, by simpa using same⟩)
    | lpush key _ | llen key => cases key <;> exact .inl there
    | _ => exact .inl there
  cases served with
  | done _ c | unheard _ c _ =>
    refine (ran c fun due id same => other due id (by rw [same])).imp_right fun same => by rw [same]
  | _ => exact .inl there

end

section
variable [Library]

structure Timely (d : Diary) (running gone : List Grip) : Prop where
  single : Single d.shared running gone
  started : 0 ≤ d.shared.clock
  time : ∀ g ∈ running, g.time ≤ d.shared.clock
  entries : ∀ entry ∈ d.shared.store.later, d.due entry.2 = some entry.1
  -- What a process read as due is due.
  todo : ∀ g ∈ running, ∀ id ∈ g.due, ∀ t, (t, id) ∈ d.shared.store.later → t ≤ unix d.shared.clock
  past : ∀ id t, d.due id = some t → (t, id) ∈ d.shared.store.later ∨ t ≤ unix d.shared.clock
  issued : ∀ id t, d.due id = some t → id ∈ d.shared.issued
  undrawn : ∀ g ∈ running, ∀ id, g.drawn = some id → d.due id = none

variable {g : Grip} {d d' : Diary} {s : Shared} {e : Event calls} {before after gone : List Grip}

section
variable (timely : Timely d (before ++ g :: after) gone)
include timely

lemma Timely.unscheduled (may : g.mayDo none e.op)
    (served : Serve d.shared e s) (later : ∀ {entry}, entry ∈ s.store.later → entry ∈ d.shared.store.later)
    (kept : ∀ {entry}, entry ∈ d.shared.store.later → entry ∈ s.store.later ∨ e.op = .store (.zrem entry.2)) :
    Timely { d with shared := s } (before ++ g.note e :: after) gone := by
  have here : g ∈ before ++ g :: after := mem_here
  have sane := timely.single.sane g here
  have shifts := Shifts.of_serve sane timely.single.sound may served
  have goes := Grip.Goes.of_serve (g := g) served
  have same := served.clock
  constructor
  case single => exact timely.single.act shifts
  case started => exact same ▸ timely.started
  case time =>
    intro h member
    change h.time ≤ s.clock
    rw [same]
    rcases mem_exchanged g member with rfl | old
    · rcases goes.time with kept | read
      · rw [kept]
        exact timely.time g here
      · rw [read]
    · exact timely.time h old
  case entries => exact fun entry there => timely.entries entry (later there)
  case todo =>
    intro h member id listed t there
    change t ≤ unix s.clock
    rw [same]
    rcases mem_exchanged g member with rfl | old
    · rcases goes.due id listed with old | ⟨upTo, t', reads, due, there'⟩
      · exact timely.todo g here id old t (later there)
      · -- The entry was read with the score it has.
        have once : some t = some t' :=
          (timely.entries _ (later there)).symm.trans (timely.entries (t', id) there')
        cases once
        rw [reads] at may
        have asked : upTo = unix g.time := may sane
        exact (due.trans_eq asked).trans (unix_mono (timely.time g here))
    · exact timely.todo h old id listed t (later there)
  case past =>
    intro id t due
    change (t, id) ∈ s.store.later ∨ t ≤ unix s.clock
    rw [same]
    rcases timely.past id t due with there | past
    · rcases kept there with kept | removes
      · exact .inl kept
      · rw [removes] at may
        exact .inr (timely.todo g here id (may sane).2 t there)
    · exact .inr past
  case issued => exact fun id t due => shifts.issued (timely.issued id t due)
  case undrawn =>
    intro h member id drawn
    rcases mem_exchanged g member with rfl | old
    · rcases goes.drawn id drawn with drawn | fresh
      · exact timely.undrawn g here id drawn
      · by_contra some
        obtain ⟨t, due⟩ := Option.ne_none_iff_exists'.mp some
        exact fresh (timely.issued id t due)
    · exact timely.undrawn h old id drawn

lemma Timely.scheduled {due : Int} {id : Str} {answer : Except Err Unit} (may : g.mayDo none (.store (.zadd due id)))
    (unclaimed : ∀ h ∈ before ++ after, id ∉ h.due) :
    Timely (d.schedule due id) (before ++ g.note ⟨.store (.zadd due id), answer⟩ :: after) gone := by
  have here : g ∈ before ++ g :: after := mem_here
  have sane := timely.single.sane g here
  obtain ⟨held, nothing, -⟩ := may sane
  have served := (Schedules.effective d due id answer).serve
  have shifts := Shifts.of_serve sane timely.single.sound may served
  obtain ⟨-, undrawn, alone⟩ := timely.single.held_only held
  have noted : g.note ⟨.store (.zadd due id), answer⟩ = { g with held := none } := by cases answer <;> rfl
  rw [noted] at shifts ⊢
  have later {entry : Int × Str} (there : entry ∈ (d.schedule due id).shared.store.later) :
      entry = (due, id) ∨ (entry ∈ d.shared.store.later ∧ entry.2 ≠ id) :=
    ((mem_schedule _ _ _).mp there).imp_right fun there => by simpa using List.mem_filter.mp there
  constructor
  case single => exact timely.single.act shifts
  case started => exact timely.started
  case time =>
    intro h member
    rcases mem_middle.mp member with rfl | other
    · exact timely.time g here
    · exact timely.time h (mem_stays other)
  case entries =>
    intro entry there
    rcases later there with rfl | ⟨there, apart⟩
    · exact d.schedule_self due id
    · rw [d.schedule_other due apart]
      exact timely.entries entry there
  case todo =>
    intro h member id' listed t there
    rcases mem_middle.mp member with rfl | other
    · rw [show (({ g with held := none } : Grip)).due = [] from nothing] at listed
      cases listed
    · rcases later there with same | ⟨there, -⟩
      · cases same
        exact absurd listed (unclaimed h other)
      · exact timely.todo h (mem_stays other) id' listed t there
  case past =>
    intro id' t known
    by_cases same : id' = id
    · subst same
      rw [d.schedule_self] at known
      cases known
      exact .inl ((mem_schedule _ _ _).mpr (.inl rfl))
    · rw [d.schedule_other due same] at known
      refine (timely.past id' t known).imp_left fun there => (mem_schedule _ _ _).mpr (.inr ?_)
      exact List.mem_filter.mpr ⟨there, by simpa using same⟩
  case issued =>
    intro id' t known
    by_cases same : id' = id
    · subst same
      apply timely.single.issued
      rw [total_split, Grip.keeps_held held]
      omega
    · rw [d.schedule_other due same] at known
      exact timely.issued id' t known
  case undrawn =>
    intro h member id' drawn
    have apart : id' ≠ id := by
      rintro rfl
      rcases mem_middle.mp member with rfl | other
      · exact undrawn drawn
      · exact (alone h other).2 drawn
    rw [d.schedule_other due apart]
    rcases mem_middle.mp member with rfl | other
    · exact timely.undrawn g here id' drawn
    · exact timely.undrawn h (mem_stays other) id' drawn

lemma Timely.act (may : g.mayDo none e.op) (step : Schedules d e d') (unclaimed : Unclaimed (before ++ after) d g e d') :
    Timely d' (before ++ g.note e :: after) gone := by
  cases step with
  | effective _ due id answer => exact timely.scheduled may (unclaimed due id rfl)
  | lost _ due id err => exact timely.unscheduled may (.lost _ _ err) (fun there => there) .inl
  | other _ _ s other served =>
    refine timely.unscheduled may served (fun there => ?_) fun there => served.later_kept there other
    exact (served.mem_later there).resolve_right (other _ _)

end

lemma Timely.join {running : List Grip} (timely : Timely d running gone) : Timely d (running ++ [({} : Grip)]) gone := by
  have known {h : Grip} (member : h ∈ running ++ [({} : Grip)]) : h ∈ running ∨ h = {} := by simpa using member
  refine { timely with
    single := timely.single.join
    time := fun h member => ?_
    todo := fun h member => ?_
    undrawn := fun h member => ?_ }
  · rcases known member with old | rfl
    · exact timely.time h old
    · exact timely.started
  · rcases known member with old | rfl
    · exact timely.todo h old
    · nofun
  · rcases known member with old | rfl
    · exact timely.undrawn h old
    · nofun

lemma Timely.leave (timely : Timely d (before ++ g :: after) gone) : Timely d (before ++ after) (gone ++ [g]) := by
  exact { timely with
    single := timely.single.leave
    time := fun h member => timely.time h (mem_stays member)
    todo := fun h member => timely.todo h (mem_stays member)
    undrawn := fun h member => timely.undrawn h (mem_stays member) }

lemma Timely.passes {running : List Grip} (timely : Timely d running gone) (passes : Passes d d') :
    Timely d' running gone := by
  obtain ⟨clock, later, rfl⟩ := passes
  have past := unix_mono later
  exact { timely with
    single := timely.single.ticks ⟨clock, rfl⟩
    started := timely.started.trans later
    time := fun h member => (timely.time h member).trans later
    todo := fun h member id listed t there => (timely.todo h member id listed t there).trans past
    past := fun id t due => (timely.past id t due).imp_right fun due => due.trans past }

lemma relays_timely [Unicode] (domain : Str) :
    Keeping (timedRelays domain) (fun g e => g.mayDo none e.op) Grip.note {} Unclaimed (fun _ _ => True) Timely where
  join _ _ _ := .join
  act _ _ _ _ _ _ _ timely may step unclaimed := timely.act may step unclaimed
  leave _ _ _ _ _ held _ := held.leave
  drift _ _ _ _ passes timely := timely.passes passes

end

/-- The id that the process is about to push to `relay:ready`. -/
def pushing {A : Type} : Act A → Option Str
  | .perform (.store (.lpush .ready id)) _ => some id
  | _ => none

lemma pushing_eq {A : Type} {p : Act A} {id : Str} (pushes : pushing p = some id) :
    ∃ next, p = .perform (.store (.lpush .ready id)) next := by
  unfold pushing at pushes
  split at pushes
  · cases pushes
    exact ⟨_, rfl⟩
  · cases pushes

section
variable [Library]

/-- Where no id is scheduled while another process has it on its list, no retry is made
ready before its time. -/
theorem retries_wait [Unicode] {domain : Str} {pool : TimedRelays}
    (reached : Pool.ReachesIf (timedRelays domain) Grip.note {} Unclaimed noneYet pool) {proc : Proc calls Returned}
    (runs : proc ∈ pool.running) {id : Str} (pushes : pushing proc.rest = some id) {t : Int}
    (due : pool.shared.due id = some t) : t ≤ unix pool.shared.shared.clock := by
  have start : Timely {} [] [] := ⟨Single.empty, Int.le_refl 0, nofun, nofun, nofun, nofun, nofun, nofun⟩
  have orderly : noneYet.Orderly (fun g e => g.mayDo none e.op) Grip.note (fun _ _ => True) {} :=
    ⟨by simp [noneYet], by simp [noneYet]⟩
  obtain ⟨orderly, timely⟩ := (relays_timely domain).reached (fun _ => job_clasp) orderly start reached
  obtain ⟨did, rest⟩ := proc
  obtain ⟨next, rfl⟩ := pushing_eq pushes
  obtain ⟨_, ⟨allowed, -⟩, -⟩ := orderly.running _ runs (.ok ())
  have hand : gripOf did ∈ pool.hands Grip.note {} := List.mem_map_of_mem (f := fun p => gripOf p.did) runs
  rcases (allowed (timely.single.sane _ hand)).1 with held | ⟨-, drawn⟩
  · obtain ⟨before, after, split⟩ := List.append_of_mem hand
    have single := timely.single
    rw [split] at single
    obtain ⟨-, later, -⟩ := Store.listings_eq_zero (single.held_only held).1
    exact (timely.past id t due).resolve_left fun there => later (List.mem_map_of_mem there)
  · rw [timely.undrawn _ hand id drawn] at due
    cases due

end

def inDiary (player : Player calls Shared) : Player calls Diary := fun d o =>
  ((player d.shared o).1,
    match o with
    | .store (.zadd due id) => d.schedule due id
    | _ => { d with shared := (player d.shared o).2 })

-- Every attempt is put off.
def deferring : Player calls Shared := fun s o =>
  match o with
  | .send _ _ => ({ code := 451 }, s)
  | o => redis s o

def ledger : Player calls Diary := inDiary deferring

lemma ledger_schedules (d : Diary) (o : Op) : Schedules d ⟨o, (ledger d o).1⟩ (ledger d o).2 := by
  cases o with
  | store c =>
    cases c with
    | zadd due id => exact .effective d due id _
    | _ => exact .other d _ _ (by simp) (redis_serves d.shared _)
  | send conn options => exact .other d _ _ (by simp) (.other _ _ rfl)
  | _ => exact .other d _ _ (by simp) (redis_serves d.shared _)

def acceptedTimed : TimedRelays :=
  let run := (taking oneRelay oneMessage).play ledger {}
  { shared := run.2.2, gone := [(run.1, some run.2.1)] }

-- The first attempt is put off for five minutes.
def triedTimed : TimedRelays :=
  let run := (draining oneRelay).play ledger acceptedTimed.shared
  { shared := run.2.2, gone := acceptedTimed.gone ++ [(run.1, some run.2.1)] }

def overdue : TimedRelays :=
  { triedTimed with shared := { triedTimed.shared with shared := { triedTimed.shared.shared with clock := 300 * second } } }

lemma ledger_alone (d : Diary) (o : Op) : (timedRelays (lit "node.test")).minding Unclaimed []
    d ⟨o, (ledger d o).1⟩ (ledger d o).2 :=
  ⟨ledger_schedules d o, fun _ => trivial, fun _ _ _ _ _ member => by cases member⟩

lemma overdue_reached : Pool.ReachesIf (timedRelays (lit "node.test")) Grip.note {} Unclaimed noneYet overdue := by
  have accepted : Pool.ReachesIf (timedRelays (lit "node.test")) Grip.note {} Unclaimed noneYet acceptedTimed :=
    .returns rfl ⟨oneRelay, rfl, .inr ⟨oneMessage, rfl⟩⟩
      (Prog.play_runs (fun d : Diary => d) ledger_alone (taking oneRelay oneMessage) {})
  have tried : Pool.ReachesIf (timedRelays (lit "node.test")) Grip.note {} Unclaimed acceptedTimed triedTimed :=
    .returns rfl ⟨oneRelay, rfl, .inl rfl⟩
      (Prog.play_runs (fun d : Diary => d) ledger_alone (draining oneRelay) acceptedTimed.shared)
  have waits : triedTimed.shared.shared.clock ≤ 300 * second := by decide +kernel
  exact (accepted.trans tried).tail (.aside (.drift ⟨300 * second, waits, rfl⟩))

-- The message is found due and taken off `relay:later`.
def onTime : TimedRelays :=
  let cut := (draining oneRelay).playFor ledger 3 overdue.shared
  { shared := cut.2.2, running := [⟨cut.1, cut.2.1⟩], gone := overdue.gone }

/-- A retry that is pushed at its time. -/
theorem onTime_waits : ∃ proc ∈ onTime.running, pushing proc.rest = some oneID ∧ onTime.shared.due oneID = some 300 ∧
    300 ≤ unix onTime.shared.shared.clock := by
  have reached : Pool.ReachesIf (timedRelays (lit "node.test")) Grip.note {} Unclaimed overdue onTime :=
    .starts rfl ⟨oneRelay, rfl, .inl rfl⟩ (Prog.playFor_runs ledger_alone 3 (draining oneRelay) overdue.shared)
  have pushes : ∃ proc ∈ onTime.running, pushing proc.rest = some oneID := by decide +kernel
  have due : onTime.shared.due oneID = some 300 := by decide +kernel
  obtain ⟨proc, runs, pushes⟩ := pushes
  exact ⟨proc, runs, pushes, due, retries_wait (overdue_reached.trans reached) runs pushes due⟩

-- One drainer has read what is due.
def firstReads : Trace calls × Prog calls Returned × Diary := (draining oneRelay).playFor ledger 2 overdue.shared

def reading : TimedRelays :=
  { shared := firstReads.2.2, running := [⟨firstReads.1, firstReads.2.1⟩], gone := overdue.gone }

-- Another promotes the message, tries it in vain and puts it off for ten minutes.
def secondTries : Trace calls × Returned × Diary := (draining oneRelay).play ledger firstReads.2.2

def overtaken : TimedRelays :=
  { shared := secondTries.2.2
    running := [⟨firstReads.1, firstReads.2.1⟩]
    gone := overdue.gone ++ [(secondTries.1, some secondTries.2.1)] }

-- The first goes on with its list.
def firstRemoves : Trace calls × Prog calls Returned × Diary := firstReads.2.1.playFor ledger 1 secondTries.2.2

def early : TimedRelays :=
  { shared := firstRemoves.2.2
    running := [⟨firstReads.1 ++ firstRemoves.1, firstRemoves.2.1⟩]
    gone := overtaken.gone }

/-- The entry that was added again is removed, and the message is about to be made ready ten
minutes before its time. -/
theorem retried_early : Pool.Reaches (timedRelays (lit "node.test")) noneYet early ∧
    ∃ proc ∈ early.running, pushing proc.rest = some oneID ∧ early.shared.due oneID = some 900 ∧
      unix early.shared.shared.clock = 300 := by
  have admits (d : Diary) (o : Op) : Schedules d ⟨o, (ledger d o).1⟩ (ledger d o).2 ∧ ∀ _ : Trace calls, True :=
    ⟨ledger_schedules d o, fun _ => trivial⟩
  have reads : Pool.Reaches (timedRelays (lit "node.test")) overdue reading :=
    Pool.Reaches.starts ⟨oneRelay, rfl, .inl rfl⟩ (Prog.playFor_runs admits 2 (draining oneRelay) overdue.shared)
  have overtakes : Pool.Reaches (timedRelays (lit "node.test")) reading overtaken :=
    Pool.Reaches.returns ⟨oneRelay, rfl, .inl rfl⟩
      (Prog.play_runs (W := fun d e d' => Schedules d e d' ∧ ∀ _ : Trace calls, True) (fun d : Diary => d) admits
        (draining oneRelay) firstReads.2.2)
  have removes : Runs (fun d e d' => Schedules d e d' ∧ ∀ _ : Trace calls, True) firstReads.2.1 secondTries.2.2
      firstRemoves.1 firstRemoves.2.1 firstRemoves.2.2 := by
    have run := Prog.playFor_runs (W := fun d e d' => Schedules d e d' ∧ ∀ _ : Trace calls, True) admits 1
      firstReads.2.1 secondTries.2.2
    unfold firstRemoves
    exact run
  have goesOn : Pool.Reaches (timedRelays (lit "node.test")) overtaken early :=
    Pool.Reaches.alone removes [] [] overtaken.gone firstReads.1
  refine ⟨((overdue_reached.reaches.trans reads).trans overtakes).trans goesOn, ?_⟩
  decide +kernel

end EmailVerifier.Relay
