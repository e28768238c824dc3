import Mathlib.Tactic.Tauto
import EmailVerifier.Semantics.Pool

/-! Invariants of a pool in terms of what its processes have in hand.

What matters of a process is a summary of its trace. An invariant of the shared state, the
summaries of the processes that run and of those that are gone is kept by a whole run when
each event of one process keeps it, a process may join with nothing in hand, and any may
leave. A run may be one in which every event meets a condition; the condition can look at
what the other processes have in hand.
-/

set_option autoImplicit false

namespace EmailVerifier.Semantics
open Relation (ReflTransGen)

variable {I : Interface} {A M S : Type}

lemma mem_middle {before after : List M} {h h' : M} : h' ∈ before ++ h :: after ↔ h' = h ∨ h' ∈ before ++ after :=
  List.perm_middle.mem_iff.trans List.mem_cons

lemma mem_here {before after : List M} {h : M} : h ∈ before ++ h :: after := mem_middle.mpr (.inl rfl)

lemma mem_stays {before after : List M} {h h' : M} (member : h' ∈ before ++ after) : h' ∈ before ++ h :: after :=
  mem_middle.mpr (.inr member)

lemma mem_exchanged {before after : List M} (h : M) {h' new : M} (member : h' ∈ before ++ new :: after) :
    h' = new ∨ h' ∈ before ++ h :: after :=
  (mem_middle.mp member).imp_right mem_stays

lemma mem_leaves {before after gone : List M} {h h' : M} :
    h' ∈ before ++ after ++ (gone ++ [h]) ↔ h' ∈ before ++ h :: after ++ gone := by
  simp only [List.mem_append, List.mem_cons, List.not_mem_nil, or_false]
  tauto

/-- The summary of each process that runs. -/
def Pool.hands (note : M → Event I → M) (m : M) (pool : Pool I A S) : List M :=
  pool.running.map fun proc => proc.did.foldl note m

/-- The last summary of each process that is gone. -/
def Pool.left (note : M → Event I → M) (m : M) (pool : Pool I A S) : List M :=
  pool.gone.map fun left => left.1.foldl note m

/-- What each process has done, whether it still runs or not. -/
def Pool.traces (pool : Pool I A S) : List (Trace I) :=
  pool.running.map Proc.did ++ pool.gone.map Prod.fst

variable {r : Rules I A S} {pool pool' : Pool I A S}

lemma Pool.Step.traces (step : Pool.Step r pool pool')
    {did : Trace I} (there : did ∈ pool.traces) : ∃ more, did ++ more ∈ pool'.traces := by
  -- All but the process that acts keep their traces as they are.
  have still (kept : did ∈ pool'.traces) : ∃ more, did ++ more ∈ pool'.traces := ⟨[], by rwa [List.append_nil]⟩
  cases step with
  | spawn _ =>
    apply still
    simp only [Pool.traces, List.map_append, List.mem_append] at there ⊢
    tauto
  | @act _ _ before after _ acting o _ a _ _ =>
    by_cases same : did = acting
    · exact ⟨[⟨o, a⟩], by simp [Pool.traces, same]⟩
    · apply still
      simp only [Pool.traces, List.map_append, List.map_cons, List.mem_append, List.mem_cons, same, false_or] at there ⊢
      tauto
  | finish | crash _ =>
    apply still
    simp only [Pool.traces, List.map_append, List.map_cons, List.mem_append, List.mem_cons] at there ⊢
    tauto
  | drift _ => exact still there

lemma Pool.Reaches.traces (reaches : Pool.Reaches r pool pool')
    {did : Trace I} (there : did ∈ pool.traces) : ∃ more, did ++ more ∈ pool'.traces := by
  induction reaches with
  | refl => exact ⟨[], by simpa using there⟩
  | tail _ step ih =>
    obtain ⟨more, there⟩ := ih
    obtain ⟨again, there⟩ := step.traces there
    exact ⟨more ++ again, by simpa using there⟩

lemma foldl_snoc (seen did : Trace I) : did.foldl (fun seen e => seen ++ [e]) seen = seen ++ did := by
  induction did generalizing seen with
  | nil => simp
  | cons e rest ih => simp [ih]

lemma Pool.hands_traces (pool : Pool I A S) :
    pool.hands (fun did e => did ++ [e]) [] ++ pool.left (fun did e => did ++ [e]) [] = pool.traces := by
  simp only [Pool.hands, Pool.left, foldl_snoc, List.nil_append]
  rfl

/-- What a step does to the traces: some process performs an operation, or the shared state
moves by itself, or nothing happens but that a process starts or is gone. -/
lemma Pool.Step.acts {guard : M → Event I → Prop} {note : M → Event I → M} {post : A → M → Prop}
    {m : M} (orderly : pool.Orderly guard note post m) (step : Pool.Step r pool pool') :
    (∃ did e, did ∈ pool.traces ∧ did ++ [e] ∈ pool'.traces ∧ guard (did.foldl note m) e ∧
      r.world pool.shared e pool'.shared ∧ r.may pool.shared did e pool'.shared ∧
      ∀ other ∈ pool'.traces, other = did ++ [e] ∨ other ∈ pool.traces) ∨
    (pool'.shared = pool.shared ∧ ∀ did ∈ pool'.traces, did = [] ∨ did ∈ pool.traces) ∨
    (r.drift pool pool'.shared ∧ ∀ did ∈ pool'.traces, did = [] ∨ did ∈ pool.traces) := by
  cases step with
  | spawn _ =>
    refine .inr (.inl ⟨rfl, fun did member => ?_⟩)
    simp only [Pool.traces, List.map_append, List.map_cons, List.map_nil, List.mem_append, List.mem_singleton] at member ⊢
    tauto
  | @act _ _ before after _ did o _ a served may =>
    refine .inl ⟨did, ⟨o, a⟩, by simp [Pool.traces], by simp [Pool.traces], orderly.allows a, served, may, ?_⟩
    intro other member
    simp only [Pool.traces, List.map_append, List.map_cons, List.mem_append, List.mem_cons] at member ⊢
    tauto
  | finish | crash _ =>
    refine .inr (.inl ⟨rfl, fun did member => ?_⟩)
    simp only [Pool.traces, List.map_append, List.map_cons, List.map_nil, List.mem_append, List.mem_cons] at member ⊢
    tauto
  | drift drifts => exact .inr (.inr ⟨drifts, fun did member => .inr member⟩)

/-- A condition on one event: what the others have in hand, the shared state, what the
process itself has in hand, the event, and the shared state after it. -/
abbrev Condition (I : Interface) (M S : Type) := List M → S → M → Event I → S → Prop

/-- A step in a run whose events meet a condition. -/
inductive Pool.StepIf (r : Rules I A S) (note : M → Event I → M) (m : M) (cond : Condition I M S) :
    Pool I A S → Pool I A S → Prop where
  | act {s s' : S} {before after : List (Proc I A)} {gone : List (Trace I × Option A)} {did : Trace I}
      {o : I.Op} {next : I.Answer o → Prog I A} {a : I.Answer o} :
      r.world s ⟨o, a⟩ s' → r.may s did ⟨o, a⟩ s' →
      cond ((before ++ after).map fun proc => proc.did.foldl note m) s (did.foldl note m) ⟨o, a⟩ s' →
      Pool.StepIf r note m cond ⟨s, before ++ ⟨did, .perform o next⟩ :: after, gone⟩
        ⟨s', before ++ ⟨did ++ [⟨o, a⟩], next a⟩ :: after, gone⟩
  | aside {pool pool' : Pool I A S} : Pool.Step { r with world := fun _ _ _ => False } pool pool' →
      Pool.StepIf r note m cond pool pool'

abbrev Pool.ReachesIf (r : Rules I A S) (note : M → Event I → M) (m : M) (cond : Condition I M S) :
    Pool I A S → Pool I A S → Prop := ReflTransGen (Pool.StepIf r note m cond)

section
variable {r : Rules I A S} {note : M → Event I → M} {m : M} {cond : Condition I M S} {pool pool' start : Pool I A S}

lemma Pool.StepIf.step (step : Pool.StepIf r note m cond pool pool') : Pool.Step r pool pool' := by
  cases step with
  | act served may _ => exact .act served may
  | aside step =>
    cases step with
    | spawn job => exact .spawn job
    | act served _ => exact served.elim
    | finish => exact .finish
    | crash may => exact .crash may
    | drift drifts => exact .drift drifts

lemma Pool.ReachesIf.reaches (reaches : Pool.ReachesIf r note m cond start pool) : Pool.Reaches r start pool :=
  ReflTransGen.mono (fun _ _ step => Pool.StepIf.step step) _ _ reaches

lemma Pool.Step.freely (free : ∀ others s h e s', cond others s h e s') (step : Pool.Step r pool pool') :
    Pool.StepIf r note m cond pool pool' := by
  cases step with
  | spawn job => exact .aside (.spawn job)
  | act served may => exact .act served may (free _ _ _ _ _)
  | finish => exact .aside .finish
  | crash may => exact .aside (.crash may)
  | drift drifts => exact .aside (.drift drifts)

lemma Pool.Reaches.freely (free : ∀ others s h e s', cond others s h e s') (reaches : Pool.Reaches r start pool) :
    Pool.ReachesIf r note m cond start pool :=
  ReflTransGen.mono (fun _ _ step => Pool.Step.freely free step) _ _ reaches

/-- How a process may leave: it has returned, or it crashed where it may. -/
def Rules.Leaves (r : Rules I A S) (note : M → Event I → M) (m : M) (post : A → M → Prop) (s : S) (h : M) : Prop :=
  (∃ a, post a h) ∨ ∃ did, h = did.foldl note m ∧ r.mayCrash s did

/-- An invariant in terms of hands. -/
structure Keeping (r : Rules I A S) (guard : M → Event I → Prop) (note : M → Event I → M) (m : M)
    (cond : Condition I M S) (post : A → M → Prop) (inv : S → List M → List M → Prop) : Prop where
  join : ∀ s running gone, inv s running gone → inv s (running ++ [m]) gone
  act : ∀ s s' before h after gone e, inv s (before ++ h :: after) gone → guard h e → r.world s e s' →
    cond (before ++ after) s h e s' → inv s' (before ++ note h e :: after) gone
  leave : ∀ s before h after gone, inv s (before ++ h :: after) gone → r.Leaves note m post s h →
    inv s (before ++ after) (gone ++ [h])
  drift : ∀ (pool : Pool I A S) s' running gone, r.drift pool s' → inv pool.shared running gone → inv s' running gone

variable {guard : M → Event I → Prop} {post : A → M → Prop} {inv : S → List M → List M → Prop}

lemma Keeping.step (keeping : Keeping r guard note m cond post inv) (orderly : pool.Orderly guard note post m)
    (held : inv pool.shared (pool.hands note m) (pool.left note m)) (step : Pool.StepIf r note m cond pool pool') :
    inv pool'.shared (pool'.hands note m) (pool'.left note m) := by
  cases step with
  | @act s s' before after gone did o next a served _ fair =>
    simp only [Pool.hands, Pool.left, List.map_append, List.map_cons] at held fair ⊢
    have kept := keeping.act s s' _ _ _ _ _ held (orderly.allows a) served fair
    simpa using kept
  | aside step =>
    cases step with
    | spawn _ => simpa [Pool.hands, Pool.left] using keeping.join _ _ _ held
    | act served _ => exact served.elim
    | @finish _ _ _ _ did a =>
      simp only [Pool.hands, Pool.left, List.map_append, List.map_cons, List.map_nil] at held ⊢
      exact keeping.leave _ _ _ _ _ held (.inl ⟨a, orderly.running ⟨did, .done a⟩ (by simp)⟩)
    | @crash _ _ _ _ proc may =>
      simp only [Pool.hands, Pool.left, List.map_append, List.map_cons, List.map_nil] at held ⊢
      exact keeping.leave _ _ _ _ _ held (.inr ⟨proc.did, rfl, may⟩)
    | drift drifts => exact keeping.drift pool _ _ _ drifts held

/-- The invariant rule for hands. -/
lemma Keeping.reached (keeping : Keeping r guard note m cond post inv)
    (jobs : ∀ p, r.job p → p.Follows (World.guarded guard note) post m) (orderly : start.Orderly guard note post m)
    (first : inv start.shared (start.hands note m) (start.left note m))
    (reaches : Pool.ReachesIf r note m cond start pool) :
    pool.Orderly guard note post m ∧ inv pool.shared (pool.hands note m) (pool.left note m) := by
  induction reaches with
  | refl => exact ⟨orderly, first⟩
  | tail _ moved ih => exact ⟨ih.1.next jobs moved.step, keeping.step ih.1 ih.2 moved⟩

end

section
variable {r : Rules I A S} {note : M → Event I → M} {m : M} {cond : Condition I M S} {p q : Prog I A} {s t : S}
  {tr : Trace I}

/-- Surroundings that meet the condition whatever the process did before, as long as the
others wait with these hands. -/
def Rules.minding (r : Rules I A S) (cond : Condition I M S) (others : List M) : World I S :=
  fun s e s' => r.world s e s' ∧ (∀ did, r.may s did e s') ∧ ∀ h, cond others s h e s'

lemma Pool.ReachesIf.alone (before after : List (Proc I A)) {others : List M}
    (same : ((before ++ after).map fun proc => proc.did.foldl note m) = others)
    (run : Runs (r.minding cond others) p s tr q t) (gone : List (Trace I × Option A)) (did : Trace I) :
    Pool.ReachesIf r note m cond ⟨s, before ++ ⟨did, p⟩ :: after, gone⟩
      ⟨t, before ++ ⟨did ++ tr, q⟩ :: after, gone⟩ := by
  induction run generalizing did with
  | stop =>
    rw [List.append_nil]
  | @next o _ a _ _ _ tr _ answered _ ih =>
    obtain ⟨served, may, fair⟩ := answered
    have rest := ih (did ++ [⟨o, a⟩])
    rw [List.append_assoc, List.singleton_append] at rest
    exact .head (.act served (may did) (same ▸ fair _)) rest

lemma Pool.ReachesIf.starts {running : List (Proc I A)} {gone : List (Trace I × Option A)} {others : List M}
    (same : (running.map fun proc => proc.did.foldl note m) = others) (job : r.job p)
    (run : Runs (r.minding cond others) p s tr q t) :
    Pool.ReachesIf r note m cond ⟨s, running, gone⟩ ⟨t, running ++ [⟨tr, q⟩], gone⟩ := by
  refine .head (.aside (.spawn job)) ?_
  exact Pool.ReachesIf.alone running [] (by simpa using same) run gone []

lemma Pool.ReachesIf.returns {running : List (Proc I A)} {gone : List (Trace I × Option A)} {others : List M} {a : A}
    (same : (running.map fun proc => proc.did.foldl note m) = others) (job : r.job p)
    (run : Runs (r.minding cond others) p s tr (.done a) t) :
    Pool.ReachesIf r note m cond ⟨s, running, gone⟩ ⟨t, running, gone ++ [(tr, some a)]⟩ := by
  refine .tail (Pool.ReachesIf.starts same job run) (.aside ?_)
  have last : Pool.Step { r with world := fun _ _ _ => False } ⟨t, running ++ [⟨tr, .done a⟩], gone⟩
      ⟨t, running ++ [], gone ++ [(tr, some a)]⟩ := .finish
  rwa [List.append_nil] at last

end

end EmailVerifier.Semantics
