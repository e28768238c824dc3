import Mathlib.Logic.Relation
import EmailVerifier.Semantics.Protocol

/-! Programs that run side by side over one shared state.

Each process performs its operations one at a time, in any order with those of the
others. It may stop between any two of them, for good. What a process has done so far
is kept with it, so what it holds can be read off its own trace.
-/

set_option autoImplicit false

namespace EmailVerifier.Semantics

variable {I : Interface} {A M S : Type}

structure Proc (I : Interface) (A : Type) where
  did : Trace I
  rest : Prog I A

/-- Processes that are gone returned a value, or crashed. -/
structure Pool (I : Interface) (A S : Type) where
  shared : S
  running : List (Proc I A) := []
  gone : List (Trace I × Option A) := []

/-- What may happen: how the shared state answers, which programs are started, which
steps and crashes are in question for a process that has done so much, and what the
shared state does by itself. -/
structure Rules (I : Interface) (A S : Type) where
  world : World I S
  job : Prog I A → Prop
  may : S → Trace I → Event I → S → Prop := fun _ _ _ _ => True
  mayCrash : S → Trace I → Prop := fun _ _ => True
  drift : Pool I A S → S → Prop := fun _ _ => False

inductive Pool.Step (r : Rules I A S) : Pool I A S → Pool I A S → Prop where
  | spawn {s : S} {running : List (Proc I A)} {gone : List (Trace I × Option A)} {p : Prog I A} : r.job p →
      Pool.Step r ⟨s, running, gone⟩ ⟨s, running ++ [⟨[], p⟩], gone⟩
  | act {s s' : S} {before after : List (Proc I A)} {gone : List (Trace I × Option A)} {did : Trace I}
      {o : I.Op} {next : I.Answer o → Prog I A} {a : I.Answer o} :
      r.world s ⟨o, a⟩ s' → r.may s did ⟨o, a⟩ s' →
      Pool.Step r ⟨s, before ++ ⟨did, .perform o next⟩ :: after, gone⟩
        ⟨s', before ++ ⟨did ++ [⟨o, a⟩], next a⟩ :: after, gone⟩
  | finish {s : S} {before after : List (Proc I A)} {gone : List (Trace I × Option A)} {did : Trace I} {a : A} :
      Pool.Step r ⟨s, before ++ ⟨did, .done a⟩ :: after, gone⟩ ⟨s, before ++ after, gone ++ [(did, some a)]⟩
  | crash {s : S} {before after : List (Proc I A)} {gone : List (Trace I × Option A)} {proc : Proc I A} :
      r.mayCrash s proc.did →
      Pool.Step r ⟨s, before ++ proc :: after, gone⟩ ⟨s, before ++ after, gone ++ [(proc.did, none)]⟩
  | drift {pool : Pool I A S} {s' : S} : r.drift pool s' → Pool.Step r pool { pool with shared := s' }

abbrev Pool.Reaches (r : Rules I A S) : Pool I A S → Pool I A S → Prop := Relation.ReflTransGen (Pool.Step r)

/-- A protocol that takes note of every event and is particular about some. -/
def World.guarded (guard : M → Event I → Prop) (note : M → Event I → M) : World I M :=
  fun m e m' => guard m e ∧ m' = note m e

section
variable {r : Rules I A S} {guard : M → Event I → Prop} {note : M → Event I → M} {post : A → M → Prop} {m : M}

lemma Prog.Follows.heed {o : I.Op} {next : I.Answer o → Prog I A} (allowed : ∀ a, guard m ⟨o, a⟩)
    (rest : ∀ a, (next a).Follows (World.guarded guard note) post (note m ⟨o, a⟩)) :
    (Prog.ask o >>= next).Follows (World.guarded guard note) post m :=
  fun a => ⟨note m ⟨o, a⟩, ⟨allowed a, rfl⟩, rest a⟩

lemma Prog.Only.heed {Q : I.Op → Prop} {p : Prog I A} (only : p.Only Q) (fine : ∀ m e, Q e.op → guard m e) :
    p.Follows (World.guarded guard note) (fun _ _ => True) m := by
  induction p generalizing m with
  | done a => trivial
  | perform o next ih => exact fun a => ⟨note m ⟨o, a⟩, ⟨fine _ _ only.1, rfl⟩, ih a (only.2 a)⟩

/-- What a program does at all is in order as well. -/
lemma Prog.Follows.only {Q : I.Op → Prop} {p : Prog I A} (follows : p.Follows (World.guarded guard note) post m)
    (only : p.Only Q) : p.Follows (World.guarded (fun m e => guard m e ∧ Q e.op) note) post m := by
  induction p generalizing m with
  | done a => exact follows
  | perform o next ih =>
    intro a
    obtain ⟨_, ⟨allowed, rfl⟩, rest⟩ := follows a
    exact ⟨_, ⟨⟨allowed, only.1⟩, rfl⟩, ih a rest (only.2 a)⟩

-- Every process is where its own trace says it is, with the rest of its program ahead.
structure Pool.Orderly (guard : M → Event I → Prop) (note : M → Event I → M) (post : A → M → Prop) (m : M)
    (pool : Pool I A S) : Prop where
  running : ∀ proc ∈ pool.running, proc.rest.Follows (World.guarded guard note) post (proc.did.foldl note m)
  returned : ∀ did a, (did, some a) ∈ pool.gone → post a (did.foldl note m)

lemma Pool.Orderly.drop {s : S} {before after : List (Proc I A)} {proc : Proc I A} {gone : List (Trace I × Option A)}
    {out : Option A} (orderly : Pool.Orderly guard note post m ⟨s, before ++ proc :: after, gone⟩)
    (returns : ∀ a ∈ out, post a (proc.did.foldl note m)) :
    Pool.Orderly guard note post m ⟨s, before ++ after, gone ++ [(proc.did, out)]⟩ := by
  refine ⟨fun other member => orderly.running other ?_, fun did a member => ?_⟩
  · rcases List.mem_append.mp member with old | old <;> simp [old]
  · rcases List.mem_append.mp member with old | new
    · exact orderly.returned did a old
    · cases List.mem_singleton.mp new
      exact returns a rfl

lemma Pool.Orderly.next {pool pool' : Pool I A S} (orderly : pool.Orderly guard note post m)
    (jobs : ∀ p, r.job p → p.Follows (World.guarded guard note) post m) (step : Pool.Step r pool pool') :
    pool'.Orderly guard note post m := by
  have ⟨running, returned⟩ := orderly
  cases step with
  | spawn job => exact ⟨forall_mem_snoc.mpr ⟨running, jobs _ job⟩, returned⟩
  | @act _ _ before after _ did o next a _ _ =>
    refine ⟨fun proc member => ?_, returned⟩
    have here := running ⟨did, .perform o next⟩ (by simp)
    rcases List.mem_append.mp member with old | member
    · exact running proc (List.mem_append_left _ old)
    rcases List.mem_cons.mp member with rfl | old
    · obtain ⟨m', ⟨-, rfl⟩, rest⟩ := here a
      simpa using rest
    · exact running proc (by simp [old])
  | @finish _ _ _ _ did a =>
    refine orderly.drop ?_
    rintro _ ⟨⟩
    exact running ⟨did, .done a⟩ (by simp)
  | crash _ => exact orderly.drop nofun
  | drift _ => exact ⟨running, returned⟩

-- The next operation of a running process is one its protocol allows, whatever is answered.
lemma Pool.Orderly.allows {s : S} {before after : List (Proc I A)} {gone : List (Trace I × Option A)}
    {did : Trace I} {o : I.Op} {next : I.Answer o → Prog I A}
    (orderly : Pool.Orderly guard note post m ⟨s, before ++ ⟨did, .perform o next⟩ :: after, gone⟩)
    (a : I.Answer o) : guard (did.foldl note m) ⟨o, a⟩ := by
  obtain ⟨_, ⟨allowed, -⟩, -⟩ := orderly.running ⟨did, .perform o next⟩ (by simp) a
  exact allowed

/-- The invariant rule: what holds at first and is kept by each step of an orderly pool
holds in every pool that is reached. -/
lemma Pool.Reaches.keeps (inv : Pool I A S → Prop) {start pool : Pool I A S} (reaches : Pool.Reaches r start pool)
    (jobs : ∀ p, r.job p → p.Follows (World.guarded guard note) post m)
    (orderly : start.Orderly guard note post m) (first : inv start)
    (step : ∀ pool pool', pool.Orderly guard note post m → inv pool → Pool.Step r pool pool' → inv pool') :
    pool.Orderly guard note post m ∧ inv pool := by
  induction reaches with
  | refl => exact ⟨orderly, first⟩
  | tail _ moved ih => exact ⟨ih.1.next jobs moved, step _ _ ih.1 ih.2 moved⟩

end

/-- The surroundings of one process while the others wait, with what it has done so far. -/
def Rules.solo (r : Rules I A S) : World I (S × Trace I) :=
  fun x e y => r.world x.1 e y.1 ∧ r.may x.1 x.2 e y.1 ∧ y.2 = x.2 ++ [e]

lemma Pool.Reaches.solo {r : Rules I A S} {p q : Prog I A} {x y : S × Trace I} {tr : Trace I}
    (run : Runs r.solo p x tr q y) (before after : List (Proc I A)) (gone : List (Trace I × Option A)) :
    Pool.Reaches r ⟨x.1, before ++ ⟨x.2, p⟩ :: after, gone⟩ ⟨y.1, before ++ ⟨y.2, q⟩ :: after, gone⟩ := by
  induction run with
  | stop => exact .refl
  | next answered _ ih =>
    obtain ⟨served, may, did⟩ := answered
    rw [did] at ih
    exact .head (.act served may) ih

lemma Pool.Reaches.alone {r : Rules I A S} {p q : Prog I A} {s t : S} {tr : Trace I}
    (run : Runs (fun s e s' => r.world s e s' ∧ ∀ did, r.may s did e s') p s tr q t)
    (before after : List (Proc I A)) (gone : List (Trace I × Option A)) (did : Trace I) :
    Pool.Reaches r ⟨s, before ++ ⟨did, p⟩ :: after, gone⟩ ⟨t, before ++ ⟨did ++ tr, q⟩ :: after, gone⟩ := by
  have noted : Runs r.solo p (s, did) tr q (t, did ++ tr) := by
    induction run generalizing did with
    | stop => simpa using Runs.stop
    | @next o _ a _ _ _ tr _ answered _ ih =>
      have rest := ih (did ++ [⟨o, a⟩])
      rw [List.append_assoc, List.singleton_append] at rest
      exact .next ⟨answered.1, answered.2 did, rfl⟩ rest
  exact Pool.Reaches.solo noted before after gone

section
variable {r : Rules I A S} {p q : Prog I A} {s t : S} {tr : Trace I} {running : List (Proc I A)}
  {gone : List (Trace I × Option A)}

lemma Pool.Step.finishes {a : A} :
    Pool.Step r ⟨t, running ++ [⟨tr, .done a⟩], gone⟩ ⟨t, running, gone ++ [(tr, some a)]⟩ := by
  have last : Pool.Step r ⟨t, running ++ [⟨tr, .done a⟩], gone⟩ ⟨t, running ++ [], gone ++ [(tr, some a)]⟩ := .finish
  rwa [List.append_nil] at last

lemma Pool.Reaches.completes {a : A} (job : r.job p) (run : Runs r.solo p (s, []) tr (.done a) (t, tr)) :
    Pool.Reaches r ⟨s, running, gone⟩ ⟨t, running, gone ++ [(tr, some a)]⟩ :=
  .tail (.head (.spawn job) (Pool.Reaches.solo run running [] gone)) .finishes

lemma Pool.Reaches.starts (job : r.job p)
    (run : Runs (fun s e s' => r.world s e s' ∧ ∀ did, r.may s did e s') p s tr q t) :
    Pool.Reaches r ⟨s, running, gone⟩ ⟨t, running ++ [⟨tr, q⟩], gone⟩ :=
  .head (.spawn job) (Pool.Reaches.alone run running [] gone [])

lemma Pool.Reaches.returns {a : A} (job : r.job p)
    (run : Runs (fun s e s' => r.world s e s' ∧ ∀ did, r.may s did e s') p s tr (.done a) t) :
    Pool.Reaches r ⟨s, running, gone⟩ ⟨t, running, gone ++ [(tr, some a)]⟩ :=
  .tail (Pool.Reaches.starts job run) .finishes

lemma Pool.Reaches.dies (job : r.job p)
    (run : Runs (fun s e s' => r.world s e s' ∧ ∀ did, r.may s did e s') p s tr q t) (may : r.mayCrash t tr) :
    Pool.Reaches r ⟨s, running, gone⟩ ⟨t, running, gone ++ [(tr, none)]⟩ := by
  have last : Pool.Step r ⟨t, running ++ [⟨tr, q⟩], gone⟩ ⟨t, running ++ [], gone ++ [(tr, none)]⟩ := .crash may
  rw [List.append_nil] at last
  exact .tail (Pool.Reaches.starts job run) last

end

/-! Programs whose operations all carry one tag, such as the context a call was made with.

The surroundings see the tag with every operation. What a tagged program does is what the
program does, tagged.
-/

section
variable {T : Type}

def Interface.tagged (T : Type) (I : Interface) : Interface := ⟨T × I.Op, fun o => I.Answer o.2⟩

def Event.tag (t : T) (e : Event I) : Event (I.tagged T) := ⟨(t, e.op), e.answer⟩

def Prog.tag (t : T) : Prog I A → Prog (I.tagged T) A
  | .done a => .done a
  | .perform o next => .perform (t, o) fun a => (next a).tag t

lemma Prog.Follows.tag {guard : Trace I → Event I → Prop} {post : A → Trace I → Prop} {p : Prog I A} {did : Trace I}
    (t : T) (follows : p.Follows (World.guarded guard fun did e => did ++ [e]) post did) :
    (p.tag t).Follows
      (World.guarded (fun did e => ∃ t plain e', did = plain.map (Event.tag t) ∧ e = e'.tag t ∧ guard plain e')
        fun did e => did ++ [e])
      (fun a did => ∃ plain, did = plain.map (Event.tag t) ∧ post a plain) (did.map (Event.tag t)) := by
  induction p generalizing did with
  | done a => exact ⟨did, rfl, follows⟩
  | perform o next ih =>
    intro a
    obtain ⟨_, ⟨allowed, rfl⟩, rest⟩ := follows a
    refine ⟨_, ⟨⟨t, did, ⟨o, a⟩, rfl, rfl, allowed⟩, rfl⟩, ?_⟩
    have after := ih a rest
    rw [List.map_append] at after
    exact after

end

end EmailVerifier.Semantics
