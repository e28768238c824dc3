import Mathlib.Logic.Basic
import Mathlib.Tactic.Basic

/-! Interactive programs and their runs.

A program performs operations one at a time and continues with whatever its
surroundings answer. Nothing here fixes the operations: an interface names them
and the type of each answer. A world says which answers may come and keeps the
state those answers depend on, so one program is studied under an arbitrary
peer, a scripted one, or one that only watches.
-/

set_option autoImplicit false

namespace EmailVerifier.Semantics

/-- The operations of a program and the type each of them answers with. -/
structure Interface where
  Op : Type
  Answer : Op → Type

/-- One operation together with the answer it got. -/
structure Event (I : Interface) where
  op : I.Op
  answer : I.Answer op

abbrev Trace (I : Interface) := List (Event I)

/-- A finite program tree: every branch ends, whatever the answers. -/
inductive Prog (I : Interface) (A : Type) : Type where
  | done (value : A) : Prog I A
  | perform (op : I.Op) (next : I.Answer op → Prog I A) : Prog I A

variable {I : Interface} {A B S T : Type}

namespace Prog

def bind : Prog I A → (A → Prog I B) → Prog I B
  | .done a, f => f a
  | .perform o next, f => .perform o fun a => (next a).bind f

instance : Monad (Prog I) where
  pure := .done
  bind := Prog.bind

/-- Perform one operation and return its answer. -/
def ask (o : I.Op) : Prog I (I.Answer o) := .perform o .done

lemma bind_done (p : Prog I A) : p.bind .done = p := by
  induction p with
  | done a => rfl
  | perform o next ih => simp only [bind, ih]

lemma bind_bind {C : Type} (p : Prog I A) (f : A → Prog I B) (g : B → Prog I C) :
    (p.bind f).bind g = p.bind fun a => (f a).bind g := by
  induction p with
  | done a => rfl
  | perform o next ih => simp only [bind, ih]

instance : LawfulMonad (Prog I) := LawfulMonad.mk' (Prog I)
  (fun p => bind_done p) (fun _ _ => rfl) (fun p f g => bind_bind p f g)

end Prog

/-- A transition system over events. Read as surroundings it says which answers
may come; read as a protocol, which operations are in order. -/
abbrev World (I : Interface) (S : Type) := S → Event I → S → Prop

/-- The world that gives any answer at any time. -/
def World.free : World I Unit := fun _ _ _ => True

/-- A bystander who takes note of every event. -/
def World.noting (note : S → Event I → S) : World I S := fun s e t => t = note s e

/-- Two systems reading the same events. -/
def World.both (W : World I S) (V : World I T) : World I (S × T) :=
  fun s e t => W s.1 e t.1 ∧ V s.2 e t.2

/-- A run, complete or cut short: the program `p` goes through the events of the
trace and is left as `q`. -/
inductive Runs (W : World I S) : Prog I A → S → Trace I → Prog I A → S → Prop where
  | stop {p : Prog I A} {s : S} : Runs W p s [] p s
  | next {o : I.Op} {next : I.Answer o → Prog I A} {a : I.Answer o} {s mid t : S}
      {tr : Trace I} {q : Prog I A} :
      W s ⟨o, a⟩ mid → Runs W (next a) mid tr q t → Runs W (.perform o next) s (⟨o, a⟩ :: tr) q t

/-- The events of a trace, gone through from left to right. -/
inductive Path (W : World I S) : S → Trace I → S → Prop where
  | stop {s : S} : Path W s [] s
  | next {s mid t : S} {e : Event I} {tr : Trace I} :
      W s e mid → Path W mid tr t → Path W s (e :: tr) t

lemma forall_mem_snoc {P : A → Prop} {l : List A} {a : A} : (∀ x ∈ l ++ [a], P x) ↔ (∀ x ∈ l, P x) ∧ P a := by
  rw [List.forall_mem_append, List.forall_mem_singleton]

variable {W : World I S} {p q : Prog I A} {s t : S} {tr : Trace I}

lemma Runs.path
    (run : Runs W p s tr q t) : Path W s tr t := by
  induction run with
  | stop => exact .stop
  | next answered _ ih => exact .next answered ih

/-- A run within narrower surroundings: what its events have in common, and what it keeps,
admit it there. -/
lemma Runs.narrowed {V : World I S} (run : Runs W p s tr q t)
    (inv : S → Prop) (start : inv s) (step : ∀ s e s', e ∈ tr → inv s → W s e s' → inv s' ∧ V s e s') :
    Runs V p s tr q t := by
  induction run with
  | stop => exact .stop
  | next answered _ ih =>
    obtain ⟨kept, fine⟩ := step _ _ _ List.mem_cons_self start answered
    exact .next fine (ih kept fun s e s' member => step s e s' (List.mem_cons_of_mem _ member))

lemma Runs.noting (run : Runs W p s tr q t)
    (note : T → Event I → T) (m : T) : Runs (World.noting note) p m tr q (tr.foldl note m) := by
  induction run generalizing m with
  | stop => exact .stop
  | next _ _ ih => exact .next rfl (ih _)

namespace Path

variable {W : World I S}

variable {s t : S} {tr : Trace I}

lemma both {V : World I T} {s' : S} {t t' : T} (first : Path W s tr s')
    (second : Path V t tr t') : Path (W.both V) (s, t) tr (s', t') := by
  induction first generalizing t with
  | stop =>
    cases second
    exact .stop
  | next step _ ih =>
    cases second with
    | next step' rest => exact .next ⟨step, step'⟩ (ih rest)

lemma noted {note : S → Event I → S} (path : Path (World.noting note) s tr t) : t = tr.foldl note s := by
  induction path with
  | stop => rfl
  | next noted _ ih =>
    cases noted
    exact ih

lemma traced_from {inv : Trace I → S → Prop} (step : ∀ seen s e t, inv seen s → W s e t → inv (seen ++ [e]) t)
    (path : Path W s tr t) (seen : Trace I) (start : inv seen s) : inv (seen ++ tr) t := by
  induction path generalizing seen with
  | stop => simpa using start
  | next moved _ ih => simpa using ih _ (step _ _ _ _ start moved)

lemma split {before after : Trace I} {e : Event I} (path : Path W s (before ++ e :: after) t) :
    ∃ mid mid', Path W s before mid ∧ W mid e mid' ∧ Path W mid' after t := by
  induction before generalizing s with
  | nil =>
    cases path with
    | next step rest => exact ⟨s, _, .stop, step, rest⟩
  | cons first more ih =>
    cases path with
    | next step rest =>
      obtain ⟨mid, mid', earlier, here, later⟩ := ih rest
      exact ⟨mid, mid', .next step earlier, here, later⟩

lemma start {before after : Trace I} (path : Path W s (before ++ after) t) : ∃ mid, Path W s before mid := by
  induction before generalizing s with
  | nil => exact ⟨s, .stop⟩
  | cons first more ih =>
    cases path with
    | next step rest =>
      obtain ⟨mid, earlier⟩ := ih rest
      exact ⟨mid, .next step earlier⟩

/-- The invariant rule: what holds at first and is kept by each event, in view of
the events so far, holds at the end. -/
lemma traced (inv : Trace I → S → Prop) (path : Path W s tr t)
    (start : inv [] s) (step : ∀ seen s e t, inv seen s → W s e t → inv (seen ++ [e]) t) :
    inv tr t := traced_from step path [] start

lemma keeps (inv : S → Prop) (path : Path W s tr t) (start : inv s) (step : ∀ s e t, inv s → W s e t → inv t) : inv t :=
  path.traced (fun _ => inv) start fun _ s e t => step s e t

end Path

end EmailVerifier.Semantics
