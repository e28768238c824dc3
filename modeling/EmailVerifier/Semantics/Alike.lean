import EmailVerifier.Semantics.Player
import EmailVerifier.Semantics.Triple

/-! Programs that do the same.

Two programs are alike when they perform the same operations, whatever the answers, and
return related values. Every run of the one is then a run of the other.
-/

set_option autoImplicit false

namespace EmailVerifier.Semantics

variable {I : Interface} {A A' B B' S : Type}

namespace Prog

inductive Alike (R : A → A' → Prop) : Prog I A → Prog I A' → Prop where
  | done {a : A} {a' : A'} : R a a' → Alike R (.done a) (.done a')
  | perform {o : I.Op} {next : I.Answer o → Prog I A} {next' : I.Answer o → Prog I A'} :
      (∀ x, Alike R (next x) (next' x)) → Alike R (.perform o next) (.perform o next')

variable {R : A → A' → Prop} {Q : B → B' → Prop} {p : Prog I A} {p' : Prog I A'} {W : World I S} {s t : S}

lemma Alike.bind {f : A → Prog I B} {f' : A' → Prog I B'} (first : p.Alike R p')
    (rest : ∀ a a', R a a' → (f a).Alike Q (f' a')) : (p >>= f).Alike Q (p' >>= f') := by
  change (p.bind f).Alike Q (p'.bind f')
  induction first with
  | done related => exact rest _ _ related
  | perform _ ih => exact .perform ih

lemma Alike.refl (p : Prog I A) : p.Alike (fun a a' => a = a') p := by
  induction p with
  | done a => exact .done rfl
  | perform o next ih => exact .perform ih

lemma Alike.sure {fact : A → Prop} (alike : p.Alike R p') (h : p.Ensures World.free (fun a _ => fact a) ()) :
    p.Alike (fun a a' => R a a' ∧ fact a) p' := by
  induction alike with
  | done related => exact .done ⟨related, h⟩
  | perform _ ih => exact .perform fun x => ih x (h x () trivial)

lemma Alike.runs {tr : Trace I} {a : A} (alike : p.Alike R p') (run : Runs W p s tr (.done a) t) :
    ∃ a', Runs W p' s tr (.done a') t ∧ R a a' := by
  induction alike generalizing s tr with
  | done related =>
    cases run
    exact ⟨_, .stop, related⟩
  | perform _ ih =>
    cases run with
    | next answered rest =>
      obtain ⟨a', run', related⟩ := ih _ rest
      exact ⟨a', .next answered run', related⟩

lemma Alike.ensures {fact : A → Prop} (alike : p.Alike R p') (h : p.Ensures W (fun a _ => fact a) s) :
    p'.Ensures W (fun a' _ => ∃ a, R a a' ∧ fact a) s := by
  induction alike generalizing s with
  | done related => exact ⟨_, related, h⟩
  | perform _ ih => exact fun x s' answered => ih x (h x s' answered)

end Prog

/-! Two programs that ask their questions in pairs.

The questions of a pair may differ, and so may their answers, as far as the pairing allows.
Against players that answer accordingly, what the two programs return is related.
-/

section
variable {S' : Type}

structure Pairing (I : Interface) where
  Ask : Type
  left : Ask → I.Op
  right : Ask → I.Op
  told : (q : Ask) → I.Answer (left q) → I.Answer (right q) → Prop

/-- Players whose answers are as the pairing has them. -/
structure Pairing.Upheld (P : Pairing I) (player : Player I S) (player' : Player I S') (near : S → S' → Prop) : Prop where
  told : ∀ q s s', near s s' → P.told q (player s (P.left q)).1 (player' s' (P.right q)).1
  near : ∀ q s s', near s s' → near (player s (P.left q)).2 (player' s' (P.right q)).2

namespace Prog

variable {P : Pairing I} {R : A → A' → Prop} {Q : B → B' → Prop} {p : Prog I A} {p' : Prog I A'}

inductive Twins (P : Pairing I) (R : A → A' → Prop) : Prog I A → Prog I A' → Prop where
  | done {a : A} {a' : A'} : R a a' → Twins P R (.done a) (.done a')
  | perform (q : P.Ask) {next : I.Answer (P.left q) → Prog I A} {next' : I.Answer (P.right q) → Prog I A'} :
      (∀ x x', P.told q x x' → Twins P R (next x) (next' x')) →
      Twins P R (.perform (P.left q) next) (.perform (P.right q) next')

lemma Twins.bind {f : A → Prog I B} {f' : A' → Prog I B'} (first : p.Twins P R p')
    (rest : ∀ a a', R a a' → (f a).Twins P Q (f' a')) : (p >>= f).Twins P Q (p' >>= f') := by
  change (p.bind f).Twins P Q (p'.bind f')
  induction first with
  | done related => exact rest _ _ related
  | perform q _ ih => exact .perform q ih

lemma Twins.play {player : Player I S} {player' : Player I S'} {near : S → S' → Prop} {s : S} {s' : S'}
    (upheld : P.Upheld player player' near) (twins : p.Twins P R p') (start : near s s') :
    R (p.play player s).2.1 (p'.play player' s').2.1 ∧ near (p.play player s).2.2 (p'.play player' s').2.2 := by
  induction twins generalizing s s' with
  | done related => exact ⟨related, start⟩
  | perform q _ ih => exact ih _ _ (upheld.told q s s' start) (upheld.near q s s' start)

end Prog

end

end EmailVerifier.Semantics
