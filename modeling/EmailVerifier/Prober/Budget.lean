import EmailVerifier.Prober.ProbeConduct
import EmailVerifier.Prober.Surroundings

/-! Every question costs a token.

Questions are counted where they are written, answered or not, real and bogus alike;
tokens where the pacer granted them.
-/

set_option autoImplicit false

namespace EmailVerifier.Prober
open Text Data Semantics

def questionBy : Op → Nat
  | .write _ (.rcpt _) => 1
  | .write _ (.bogus _) => 1
  | _ => 0

def tokenBy : Event calls → Nat
  | ⟨.acquire _ _, .ok _⟩ => 1
  | _ => 0

def questionsIn (tr : Trace calls) : Nat := (tr.map fun e => questionBy e.op).sum

def tokensIn (tr : Trace calls) : Nat := (tr.map tokenBy).sum

def Watch.credit (w : Watch) : Nat := if w.paid then 1 else 0

lemma Aside.questionBy {o : Op} (aside : Aside o) : questionBy o = 0 := by
  cases o <;> first | rfl | cases aside

@[simp] lemma Watch.wrote_credit (w : Watch) (command : Command) (a : Except Failure Unit) :
    (w.wrote command a).credit = w.credit := by
  cases a <;> rfl

@[simp] lemma Watch.hear_credit (w : Watch) (command : Option Command) (a : Except Failure Reply) :
    (w.hear command a).credit = w.credit := by
  cases a <;> rfl

lemma Step.paid_for {c : Scope} {w w' : Watch} {e : Event calls} (paced : c.paced = true)
    (step : Step c w e w') : questionBy e.op + w'.credit ≤ w.credit + tokenBy e := by
  cases step with
  | aside aside => rw [aside.questionBy]; omega
  | write _ sends =>
    rw [Watch.wrote_credit]
    cases sends with
    | rcpt _ paid _ => simp [questionBy, Watch.credit, paid paced]
    | bogus _ paid _ => simp [questionBy, Watch.credit, paid paced]
    | _ => simp [questionBy, Watch.credit]
  | read _ _ => simp [questionBy]
  | bye _ _ farewell => rcases farewell with rfl | rfl <;> simp [questionBy]
  | paid _ =>
    simp only [questionBy, tokenBy, Watch.credit]
    split <;> simp
  | _ => simp [questionBy, Watch.credit]

/-- At any moment of a request with a pacer, no more questions have been put than
tokens were granted. -/
theorem questions_cost_tokens [Unicode] {S : Type} {W : World calls S} {s t : S} {fuel : Nat} {o : Options}
    {req : Request} {tr : Trace calls} {q : Act (Option (Except Str Response))} (wired : o.pacer ≠ .none)
    (run : Runs W (Probe fuel o req) s tr q t) : questionsIn tr ≤ tokensIn tr := by
  have paced : (scopeOf o req).paced = true := decide_eq_true wired
  obtain ⟨w, path, -⟩ := (Probe_follows fuel o req).path run
  have inHand : questionsIn tr + w.credit ≤ tokensIn tr := by
    refine path.traced (fun seen w => questionsIn seen + w.credit ≤ tokensIn seen) (Nat.le_refl _) ?_
    intro seen w e w' covered step
    have paid := step.paid_for paced
    simp only [questionsIn, tokensIn, List.map_append, List.sum_append, List.map_cons, List.map_nil,
      List.sum_cons, List.sum_nil] at covered ⊢
    omega
  omega

/-- One address, asked with one token. -/
theorem granted_question_paid : ∃ tr q,
    Runs anyone (Probe 1 { pacer := .pacing } oneAddress) () tr q () ∧
    questionsIn tr = 1 ∧ 1 ≤ tokensIn tr := by
  have run := play_anyone granting_readable (Probe 1 { pacer := .pacing } oneAddress) false
  have asked : questionsIn ((Probe 1 { pacer := .pacing } oneAddress).play granting false).1 = 1 := by
    decide +kernel
  exact ⟨_, _, run, asked, asked ▸ questions_cost_tokens (by decide) run⟩

end EmailVerifier.Prober
