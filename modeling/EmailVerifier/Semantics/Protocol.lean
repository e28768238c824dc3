import EmailVerifier.Semantics.Program

/-! Programs that keep to a protocol.

A protocol is a transition system that says which operations are in order and
what each answer leads to. A program follows it when, whatever is answered, the
protocol has a step for everything the program does. The rules go by the shape
of the program; the conclusion is about its runs in any world.
-/

set_option autoImplicit false

namespace EmailVerifier.Semantics

variable {I : Interface} {A B M S : Type}

namespace Prog

/-- Every event the program can go through is a step of the protocol, and a returned
value meets the postcondition. -/
def Follows (P : World I M) (post : A → M → Prop) : Prog I A → M → Prop
  | .done a, m => post a m
  | .perform o next, m => ∀ a, ∃ m', P m ⟨o, a⟩ m' ∧ (next a).Follows P post m'

/-- Every operation the program can perform satisfies `Q`. -/
def Only (Q : I.Op → Prop) : Prog I A → Prop
  | .done _ => True
  | .perform o next => Q o ∧ ∀ a, (next a).Only Q

variable {P : World I M} {Q : I.Op → Prop} {post : A → M → Prop} {m : M}

variable {p : Prog I A} {f : A → Prog I B}

lemma Follows.bind {post : B → M → Prop}
    (first : p.Follows P (fun a m' => (f a).Follows P post m') m) : (p >>= f).Follows P post m := by
  change (p.bind f).Follows P post m
  induction p generalizing m with
  | done a => exact first
  | perform o next ih =>
    intro a
    obtain ⟨m', step, rest⟩ := first a
    exact ⟨m', step, ih a rest⟩

lemma Follows.of_bind {post : B → M → Prop}
    (whole : (p >>= f).Follows P post m) : p.Follows P (fun a m' => (f a).Follows P post m') m := by
  change (p.bind f).Follows P post m at whole
  induction p generalizing m with
  | done a => exact whole
  | perform o next ih =>
    intro a
    obtain ⟨m', step, rest⟩ := whole a
    exact ⟨m', step, ih a rest⟩

lemma Follows.mono {post' : A → M → Prop} (h : p.Follows P post m)
    (weaker : ∀ a m', post a m' → post' a m') : p.Follows P post' m := by
  induction p generalizing m with
  | done a => exact weaker a m h
  | perform o next ih =>
    intro a
    obtain ⟨m', step, rest⟩ := h a
    exact ⟨m', step, ih a rest⟩

lemma Follows.andThen {post' : B → M → Prop}
    (first : p.Follows P post m) (rest : ∀ a m', post a m' → (f a).Follows P post' m') :
    (p >>= f).Follows P post' m := .bind (first.mono rest)

lemma Follows.ask {o : I.Op} {post : I.Answer o → M → Prop}
    (answered : ∀ a, ∃ m', P m ⟨o, a⟩ m' ∧ post a m') : (Prog.ask o).Follows P post m := answered

@[simp] lemma only_pure (a : A) : (pure a : Prog I A).Only Q := trivial

@[simp] lemma only_ask (o : I.Op) : (Prog.ask o).Only Q ↔ Q o :=
  ⟨fun h => h.1, fun h => ⟨h, fun _ => trivial⟩⟩

lemma Only.bind (first : p.Only Q) (rest : ∀ a, (f a).Only Q) : (p >>= f).Only Q := by
  change (p.bind f).Only Q
  induction p with
  | done a => exact rest a
  | perform o next ih => exact ⟨first.1, fun a => ih a (first.2 a)⟩

lemma Only.mono {Q' : I.Op → Prop} (only : p.Only Q) (weaker : ∀ o, Q o → Q' o) : p.Only Q' := by
  induction p with
  | done a => trivial
  | perform o next ih => exact ⟨weaker o only.1, fun a => ih a (only.2 a)⟩

/-- A program of operations the protocol takes no notice of leaves it where it was. -/
lemma Only.follows (quiet : p.Only Q) (aside : ∀ o a, Q o → P m ⟨o, a⟩ m)
    (result : ∀ a, post a m) : p.Follows P post m := by
  induction p with
  | done a => exact result a
  | perform o next ih => exact fun a => ⟨m, aside o a quiet.1, ih a (quiet.2 a)⟩

/-- A program that follows a protocol follows every protocol that simulates it. -/
lemma Follows.simulated {N : Type} {Q : World I N} {R : M → N → Prop} {n : N}
    (simulates : ∀ m n e m', R m n → P m e m' → ∃ n', Q n e n' ∧ R m' n') (h : p.Follows P post m)
    (related : R m n) : p.Follows Q (fun a n' => ∃ m', R m' n' ∧ post a m') n := by
  induction p generalizing m n with
  | done a => exact ⟨m, related, h⟩
  | perform o next ih =>
    intro a
    obtain ⟨m', step, rest⟩ := h a
    obtain ⟨n', step', related'⟩ := simulates m n _ m' related step
    exact ⟨n', step', ih a rest related'⟩

/-- A program that follows a protocol goes through a path of it in every world. -/
lemma Follows.path {W : World I S} {q : Prog I A} {s t : S} {tr : Trace I}
    (h : p.Follows P post m) (run : Runs W p s tr q t) : ∃ m', Path P m tr m' ∧ q.Follows P post m' := by
  induction run generalizing m with
  | stop => exact ⟨m, .stop, h⟩
  | @next o next a s mid t tr q answered _ ih =>
    obtain ⟨m', step, rest⟩ := h a
    obtain ⟨last, path, left⟩ := ih rest
    exact ⟨last, .next step path, left⟩

end Prog

end EmailVerifier.Semantics
