import EmailVerifier.Standdown.Guard
import EmailVerifier.Text.Runes

/-! The refusers of a key, by its history.

The guard counts refusers in a set that is pruned, expires and is shared with whoever writes
the store. What it is for is told by the history of the key alone: who refused us and when,
since the key was last resumed. `Agrees` is what the two have in common after any calls made
one after the other, each at its moment; a refused count cannot tell them apart.
-/

set_option autoImplicit false

namespace EmailVerifier.Standdown
open Text Data Semantics
open Pacer (PaceKey normaliseHost)

inductive Note where
  | refused (key host : Str) (ms : Int)
  | down (key : Str) (till : Time)
  | resumed (key : Str)

abbrev History := List Note

/-- Who refused us under the key, and when, since it was last resumed. -/
def refusalsOf (key : Str) : History → List (Str × Int)
  | [] => []
  | .refused k host ms :: past => if k = key then (host, ms) :: refusalsOf key past else refusalsOf key past
  | .down _ _ :: past => refusalsOf key past
  | .resumed k :: past => if k = key then [] else refusalsOf key past

def downUntil (key : Str) : History → Option Time
  | [] => none
  | .refused _ _ _ :: past => downUntil key past
  | .down k till :: past => if k = key then some till else downUntil key past
  | .resumed k :: past => if k = key then none else downUntil key past

inductive Call where
  | observe (mxHost reply : Str)
  | resume (mxHost : Str)

lemma RefusalsKey_inj {key key' : Str} : RefusalsKey key = RefusalsKey key' ↔ key = key' := by
  unfold RefusalsKey
  rw [List.append_left_inj, List.append_right_inj]

structure Agrees (g : Guard) (s : Node) (past : History) : Prop where
  stood : ∀ key, s.stood.lookup key = downUntil key past
  paused : ∀ key, s.paused.lookup key = downUntil key past
  tracks : ∀ key, Scored.Tracks g.windowMs (unixMilli s.clock) (refusalsOf key past) (s.refusals (RefusalsKey key))

variable {g : Guard} {s : Node} {past : History}

lemma unixMilli_mono {t u : Time} (le : t.nanos ≤ u.nanos) : unixMilli t ≤ unixMilli u := by
  unfold unixMilli
  omega

lemma Agrees.later (agrees : Agrees g s past) {now : Time} (passed : s.clock.nanos ≤ now.nanos) :
    Agrees g { s with clock := now } past where
  stood := agrees.stood
  paused := agrees.paused
  tracks key := (agrees.tracks key).later (unixMilli_mono passed)

lemma write_refusals (rk : Str) (set : Scored Str) : (s.write rk set).refusals rk = set := Function.update_self ..

lemma read_write (rk : Str) {set : Scored Str} (live : set.Live (unixMilli s.clock)) :
    (s.write rk set).read rk = set := by
  unfold Node.read
  rw [write_refusals]
  exact Scored.alive_of_live live

lemma write_write (rk : Str) (set set' : Scored Str) : (s.write rk set).write rk set' = s.write rk set' := by
  unfold Node.write
  rw [Function.update_idem]

lemma Agrees.counted (agrees : Agrees g s past) (fine : 0 < g.windowMs) (key host : Str) :
    Agrees g (s.write (RefusalsKey key)
        ((s.refusals (RefusalsKey key)).see host g.windowMs (2 * g.windowMs) (unixMilli s.clock)))
      (.refused key host (unixMilli s.clock) :: past) where
  stood := agrees.stood
  paused := agrees.paused
  tracks other := by
    unfold refusalsOf
    by_cases same : key = other
    · subst same
      rw [if_pos rfl, write_refusals]
      exact (agrees.tracks key).see (by omega) (by omega)
    · have apart : RefusalsKey other ≠ RefusalsKey key := fun is => same (RefusalsKey_inj.mp is).symm
      rw [if_neg same]
      unfold Node.write
      dsimp only
      rw [Function.update_of_ne apart]
      exact agrees.tracks other

section
variable [Unicode]

def Call.prog (g : Guard) : Call → Act (Option Rule)
  | .observe mxHost reply => g.Observe mxHost reply
  | .resume mxHost => do
    let _ ← Resume mxHost
    return none

namespace Guard

def refusers (g : Guard) (past : History) (now : Time) (mxHost : Str) : Nat :=
  Scored.seenSince (unixMilli now - g.windowMs)
    ((normaliseHost mxHost, unixMilli now) :: refusalsOf (PaceKey mxHost) past)

def expected (g : Guard) (past : History) (now : Time) : Call → Option Rule × History
  | .observe mxHost reply =>
    if mxHost = [] ∨ Benign reply then (none, past)
    else if (downUntil (PaceKey mxHost) past).any now.Before then (none, past)
    else
      let counted := .refused (PaceKey mxHost) (normaliseHost mxHost) (unixMilli now) :: past
      let rule := g.ruleFor reply (g.refusers past now mxHost)
      (rule, if rule.isSome then .down (PaceKey mxHost) (now.Add g.pause) :: counted else counted)
  | .resume mxHost => (none, .resumed (PaceKey mxHost) :: past)

def perform (g : Guard) (s : Node) (now : Time) (call : Call) : Option Rule × Node :=
  ((call.prog g).play serve { s with clock := now }).2

end Guard

/-- Calls one after the other from an empty store, and what they come to by the history. -/
inductive Reached (g : Guard) : Node → History → Prop where
  | start (clock : Time) : Reached g { clock } []
  | step {s : Node} {past : History} (now : Time) (call : Call) : Reached g s past → s.clock.nanos ≤ now.nanos →
      Reached g (g.perform s now call).2 (g.expected past now call).2

lemma count_served (key host : Str) :
    (g.count key host s.clock).Against serve (fun r s' =>
      r = .ok ↑((s.refusals (RefusalsKey key)).window host g.windowMs (unixMilli s.clock)).card ∧
      s' = s.write (RefusalsKey key)
        ((s.refusals (RefusalsKey key)).see host g.windowMs (2 * g.windowMs) (unixMilli s.clock))) s := by
  have live : ((s.read (RefusalsKey key)).add host (unixMilli s.clock)).Live (unixMilli s.clock) :=
    (Scored.alive_live _ _).add
  let added := s.write (RefusalsKey key) ((s.read (RefusalsKey key)).add host (unixMilli s.clock))
  let kept := added.write (RefusalsKey key)
    ((added.read (RefusalsKey key)).dropBelow (unixMilli s.clock - g.windowMs))
  have is : kept = s.write (RefusalsKey key)
      ((s.refusals (RefusalsKey key)).window host g.windowMs (unixMilli s.clock)) := by
    unfold kept added
    rw [read_write _ live, write_write]
    rfl
  have reads : kept.read (RefusalsKey key) = (s.refusals (RefusalsKey key)).window host g.windowMs (unixMilli s.clock) := by
    rw [is]
    exact read_write _ live.dropBelow
  change (Except.ok ((kept.read (RefusalsKey key)).card : Int) : Except Redis.Err Int) = _ ∧ kept.write (RefusalsKey key)
    ((kept.read (RefusalsKey key)).expireIn (2 * g.windowMs) (unixMilli s.clock)) = _
  rw [reads, is, write_write]
  exact ⟨rfl, rfl⟩

lemma Agrees.downed (agrees : Agrees g s past) (mxHost : Str) (till : Time) :
    Agrees g { s with
        paused := s.paused.insert (PaceKey (PaceKey mxHost)) till
        stood := s.stood.insert (PaceKey mxHost) till } (.down (PaceKey mxHost) till :: past) where
  stood key := by
    rw [Table.lookup_insert_ite, downUntil, agrees.stood]
    simp only [eq_comm]
  paused key := by
    rw [Pacer.PaceKey_PaceKey, Table.lookup_insert_ite, downUntil, agrees.paused]
    simp only [eq_comm]
  tracks := agrees.tracks

lemma Agrees.lifted (agrees : Agrees g s past) (mxHost : Str) :
    Agrees g { s.write (RefusalsKey (PaceKey mxHost)) {} with
        paused := s.paused.erase (PaceKey (PaceKey mxHost))
        stood := s.stood.erase (PaceKey mxHost) } (.resumed (PaceKey mxHost) :: past) where
  stood key := by
    rw [Table.lookup_erase_ite, downUntil, agrees.stood]
    simp only [eq_comm]
  paused key := by
    rw [Pacer.PaceKey_PaceKey, Table.lookup_erase_ite, downUntil, agrees.paused]
    simp only [eq_comm]
  tracks other := by
    unfold refusalsOf Node.write
    dsimp only
    by_cases same : PaceKey mxHost = other
    · rw [if_pos same, same, Function.update_self]
      exact .start _ _
    · have apart : RefusalsKey other ≠ RefusalsKey (PaceKey mxHost) := fun is => same (RefusalsKey_inj.mp is).symm
      rw [if_neg same, Function.update_of_ne apart]
      exact agrees.tracks other

variable {mxHost reply : Str}

lemma Guard.expected_passed {now : Time} (passed : mxHost = [] ∨ Benign reply = true) :
    g.expected past now (.observe mxHost reply) = (none, past) := if_pos passed

lemma Guard.expected_down {now : Time} (down : (downUntil (PaceKey mxHost) past).any now.Before = true) :
    g.expected past now (.observe mxHost reply) = (none, past) := by
  unfold expected
  dsimp only
  rw [if_pos down, ite_self]

lemma Guard.expected_counted {now : Time} (counts : ¬ (mxHost = [] ∨ Benign reply = true))
    (up : ¬ (downUntil (PaceKey mxHost) past).any now.Before = true) :
    g.expected past now (.observe mxHost reply) =
      let counted := .refused (PaceKey mxHost) (normaliseHost mxHost) (unixMilli now) :: past
      let rule := g.ruleFor reply (g.refusers past now mxHost)
      (rule, if rule.isSome then .down (PaceKey mxHost) (now.Add g.pause) :: counted else counted) :=
  (if_neg counts).trans (if_neg up)

def Meets (g : Guard) (s : Node) (past : History) (call : Call) (out : Option Rule) (s' : Node) : Prop :=
  out = (g.expected past s.clock call).1 ∧ Agrees g s' (g.expected past s.clock call).2 ∧ s'.clock = s.clock

lemma stand_served (agrees : Agrees g s past) (mxHost host reply : Str) (n : Int) (rule : Rule) :
    (g.stand (PaceKey mxHost) host reply n s.clock rule).Against serve (fun out s' =>
      out = some rule ∧ Agrees g s' (.down (PaceKey mxHost) (s.clock.Add g.pause) :: past) ∧ s'.clock = s.clock) s := by
  change (ite (g.log = true) _ _ : Act _).Against serve _ _
  split
  · exact ⟨rfl, agrees.downed mxHost _, rfl⟩
  · exact ⟨rfl, agrees.downed mxHost _, rfl⟩

lemma weigh_served (agrees : Agrees g s past) (fine : 0 < g.windowMs) (counts : ¬ (mxHost = [] ∨ Benign reply = true)) :
    (g.weigh (PaceKey mxHost) (normaliseHost mxHost) reply).Against serve (Meets g s past (.observe mxHost reply)) s := by
  have down : isDown s.stood (PaceKey mxHost) s.clock = (downUntil (PaceKey mxHost) past).any s.clock.Before := by
    unfold isDown
    rw [agrees.stood]
  change (ite (isDown s.stood (PaceKey mxHost) s.clock = true) _ _ : Act _).Against serve _ s
  unfold Meets
  rw [down]
  split
  · rename_i standing
    rw [Guard.expected_down standing]
    exact ⟨rfl, agrees, rfl⟩
  · rename_i up
    rw [Guard.expected_counted counts up]
    have counted := agrees.counted fine (PaceKey mxHost) (normaliseHost mxHost)
    have found : ((s.refusals (RefusalsKey (PaceKey mxHost))).window (normaliseHost mxHost) g.windowMs
        (unixMilli s.clock)).card = g.refusers past s.clock mxHost :=
      (agrees.tracks (PaceKey mxHost)).card_window (Int.le_of_lt fine)
    refine ((count_served (PaceKey mxHost) (normaliseHost mxHost)).mono ?_).bind
    rintro _ _ ⟨rfl, rfl⟩
    rw [found]
    dsimp only
    cases g.ruleFor reply (g.refusers past s.clock mxHost) with
    | none => exact ⟨rfl, counted, rfl⟩
    | some rule => exact stand_served counted mxHost _ reply _ rule

lemma Call.prog_served (agrees : Agrees g s past) (fine : 0 < g.windowMs) (call : Call) :
    (call.prog g).Against serve (Meets g s past call) s := by
  cases call with
  | observe mxHost reply =>
    change (g.Observe mxHost reply).Against serve _ s
    unfold Guard.Observe
    split
    · rename_i passed
      unfold Meets
      rw [Guard.expected_passed passed]
      exact ⟨rfl, agrees, rfl⟩
    · rename_i counts
      dsimp only
      split
      · exact weigh_served agrees fine counts
      · exact weigh_served agrees fine counts
  | resume mxHost => exact ⟨rfl, agrees.lifted mxHost, rfl⟩

/-- One call after another, the guard and the history agree. -/
lemma Reached.agrees (fine : 0 < g.windowMs) (reached : Reached g s past) : Agrees g s past := by
  induction reached with
  | start clock => exact ⟨fun _ => rfl, fun _ => rfl, fun _ => .start _ _⟩
  | step now call _ later ih => exact (call.prog_served (ih.later later) fine).play.2.1

lemma Reached.nobody (reached : Reached g s past) : refusalsOf [] past = [] := by
  induction reached with
  | start clock => rfl
  | @step s past now call _ _ ih =>
    cases call with
    | observe mxHost reply =>
      by_cases passed : mxHost = [] ∨ Benign reply = true
      · rw [Guard.expected_passed passed]
        exact ih
      by_cases down : (downUntil (PaceKey mxHost) past).any now.Before = true
      · rw [Guard.expected_down down]
        exact ih
      have somebody : PaceKey mxHost ≠ [] := fun none => passed (.inl (Pacer.PaceKey_eq_nil.mp none))
      rw [Guard.expected_counted passed down]
      dsimp only
      split
      · rw [refusalsOf, refusalsOf, if_neg somebody, ih]
      · rw [refusalsOf, if_neg somebody, ih]
    | resume mxHost =>
      change refusalsOf [] (.resumed (PaceKey mxHost) :: past) = []
      rw [refusalsOf, ih, ite_self]

lemma Guard.refusers_alone (g : Guard) {now : Time}
    (alone : ∀ e ∈ refusalsOf (PaceKey mxHost) past, e.1 = normaliseHost mxHost) :
    ¬ g.hosts ≤ g.refusers past now mxHost := by
  have one : g.refusers past now mxHost ≤ 1 := Scored.seenSince_le_one (List.forall_mem_cons.mpr ⟨rfl, alone⟩)
  have := g.several
  omega

lemma Guard.ruleFor_unnamed (unnamed : NamesBlocklist reply = false) (n : Int) :
    g.ruleFor reply n = if g.hosts ≤ n then some .B else none := if_neg (Bool.eq_false_iff.mp unnamed)

lemma Reached.expected_fresh {now : Time} (reached : Reached g s past) (fresh : Benign reply = false)
    (unnamed : NamesBlocklist reply = false) (up : ¬ (downUntil (PaceKey mxHost) past).any now.Before = true) :
    (g.expected past now (.observe mxHost reply)).1 =
      (if g.hosts ≤ g.refusers past now mxHost then some .B else none) ∧
    downUntil (PaceKey mxHost) (g.expected past now (.observe mxHost reply)).2 =
      if g.hosts ≤ g.refusers past now mxHost then some (now.Add g.pause) else downUntil (PaceKey mxHost) past := by
  by_cases nobody : mxHost = []
  · subst nobody
    have few : ¬ g.hosts ≤ g.refusers past now [] := by
      refine g.refusers_alone ?_
      rw [Pacer.PaceKey_eq_nil.mpr rfl, reached.nobody]
      nofun
    rw [Guard.expected_passed (.inl rfl), if_neg few, if_neg few]
    exact ⟨rfl, rfl⟩
  · have counts : ¬ (mxHost = [] ∨ Benign reply = true) := not_or.mpr ⟨nobody, Bool.eq_false_iff.mp fresh⟩
    rw [Guard.expected_counted counts up, Guard.ruleFor_unnamed unnamed]
    dsimp only
    split
    · refine ⟨rfl, ?_⟩
      exact if_pos rfl
    · exact ⟨rfl, rfl⟩

/-- In every run, a refusal that neither excuses nor names a list stands the key down by the
second rule exactly when, by the history, enough hosts of the key are in the window, this one
among them. Otherwise nothing is paused, and one host alone never gets that far. -/
theorem several_refusers_stand_down_iff (g : Guard) (fine : 1000000 ≤ g.window) {now : Time}
    (reached : Reached g s past) (later : s.clock.nanos ≤ now.nanos) (fresh : Benign reply = false)
    (unnamed : NamesBlocklist reply = false) (up : isDown s.stood (PaceKey mxHost) now = false) :
    let out := g.perform s now (.observe mxHost reply)
    (out.1 = some .B ∧ out.2.paused.lookup (PaceKey mxHost) = some (now.Add g.pause) ↔
      g.hosts ≤ g.refusers past now mxHost) ∧
    (¬ g.hosts ≤ g.refusers past now mxHost →
      out.1 = none ∧ out.2.paused.lookup (PaceKey mxHost) = s.paused.lookup (PaceKey mxHost)) ∧
    ((∀ e ∈ refusalsOf (PaceKey mxHost) past, e.1 = normaliseHost mxHost) → out.1 ≠ some .B) := by
  intro out
  have wide : 0 < g.windowMs := Int.lt_of_lt_of_le (by decide) (Int.ediv_le_ediv (by decide) fine)
  have agrees := reached.agrees wide
  have awake : ¬ (downUntil (PaceKey mxHost) past).any now.Before = true := by
    rw [← agrees.stood]
    exact Bool.eq_false_iff.mp up
  obtain ⟨rule, till⟩ := reached.expected_fresh fresh unnamed awake
  obtain ⟨result, after, -⟩ := (Call.prog_served (agrees.later later) wide (.observe mxHost reply)).play
  have given : out.1 = if g.hosts ≤ g.refusers past now mxHost then some .B else none := result.trans rule
  have pauses : out.2.paused.lookup (PaceKey mxHost) =
      if g.hosts ≤ g.refusers past now mxHost then some (now.Add g.pause) else s.paused.lookup (PaceKey mxHost) := by
    rw [agrees.paused]
    exact (after.paused _).trans till
  rw [given, pauses]
  by_cases many : g.hosts ≤ g.refusers past now mxHost
  · rw [if_pos many, if_pos many]
    exact ⟨iff_of_true ⟨rfl, rfl⟩ many, fun few => absurd many few, fun alone => absurd many (g.refusers_alone alone)⟩
  · rw [if_neg many, if_neg many]
    exact ⟨iff_of_false nofun many, fun _ => ⟨rfl, rfl⟩, fun _ => nofun⟩

end

def pair : Guard := New { hosts := 2 }

theorem pair_stands_down :
    (pair.perform (pair.perform epochNode (Time.ofUnix 0) (.observe (lit "ionos.de") (lit "no"))).2
      (Time.ofUnix 1) (.observe (lit "B.ionos.de") (lit "no"))).1 = some .B := by
  have fresh : Benign (lit "no") = false := by decide +kernel
  have unnamed : NamesBlocklist (lit "no") = false := by decide +kernel
  have reached := (Reached.start (g := pair) (Time.ofUnix 0)).step (Time.ofUnix 0)
    (.observe (lit "ionos.de") (lit "no")) (Int.le_refl _)
  exact ((several_refusers_stand_down_iff pair (by decide) reached (by decide +kernel) fresh unnamed
    (by decide +kernel)).1.mpr (by decide +kernel)).1

def hasty : Guard := New { hosts := 2, window := 500000 }

/-- Two refusers at one moment, and the second finds itself alone. -/
theorem hasty_forgets :
    ∃ s past, Reached hasty s past ∧ Benign (lit "no") = false ∧ NamesBlocklist (lit "no") = false ∧
      isDown s.stood (PaceKey (lit "b.ionos.de")) s.clock = false ∧
      hasty.hosts ≤ hasty.refusers past s.clock (lit "b.ionos.de") ∧
      (hasty.perform s s.clock (.observe (lit "b.ionos.de") (lit "no"))).1 = none := by
  refine ⟨_, _, (Reached.start (Time.ofUnix 0)).step (Time.ofUnix 0)
    (.observe (lit "ionos.de") (lit "no")) (Int.le_refl _), ?_⟩
  decide +kernel

end EmailVerifier.Standdown
