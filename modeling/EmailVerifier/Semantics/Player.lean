import EmailVerifier.Semantics.Protocol

/-! Programs played against surroundings that decide every answer.

There is one run then, and it can be computed. `Against` says what holds at its end
and goes by the shape of the program, as the rules for protocols do.
-/

set_option autoImplicit false

namespace EmailVerifier.Semantics

variable {I : Interface} {A B N S T : Type}

/-- Surroundings that decide every answer. -/
abbrev Player (I : Interface) (S : Type) := S → (o : I.Op) → I.Answer o × S

/-- The player, taking down what each operation gives to note. -/
def Player.noting (player : Player I S) (note : I.Op → List N) : Player I (S × List N) :=
  fun s o => ((player s.1 o).1, (player s.1 o).2, s.2 ++ note o)

/-- The player, with a bystander who takes note of every event. -/
def Player.watched (player : Player I S) (note : T → Event I → T) : Player I (S × T) :=
  fun s o => ((player s.1 o).1, (player s.1 o).2, note s.2 ⟨o, (player s.1 o).1⟩)

namespace Prog

/-- The one run of a program against a player, to its end. -/
def play (player : Player I S) : Prog I A → S → Trace I × A × S
  | .done a, s => ([], a, s)
  | .perform o next, s =>
    let rest := (next (player s o).1).play player (player s o).2
    (⟨o, (player s o).1⟩ :: rest.1, rest.2)

/-- A world that admits the player's answers, whatever it remembers of them, has
that run. -/
lemma play_runs {W : World I T} {player : Player I S} (view : S → T)
    (admits : ∀ s o, W (view s) ⟨o, (player s o).1⟩ (view (player s o).2)) (p : Prog I A) (s : S) :
    Runs W p (view s) (p.play player s).1 (.done (p.play player s).2.1) (view (p.play player s).2.2) := by
  induction p generalizing s with
  | done a => exact .stop
  | perform o next ih => exact .next (admits s o) (ih _ _)

variable {p : Prog I A} {W : World I S}

lemma play_runs_within {P : Event I → Prop} {player : Player I S}
    (admits : ∀ s o, W s ⟨o, (player s o).1⟩ (player s o).2) (p : Prog I A) (s : S)
    (within : ∀ e ∈ (p.play player s).1, P e) :
    Runs (fun s e s' => W s e s' ∧ P e) p s (p.play player s).1 (.done (p.play player s).2.1) (p.play player s).2.2 := by
  induction p generalizing s with
  | done a => exact .stop
  | perform o next ih =>
    simp only [play, List.forall_mem_cons] at within
    exact .next ⟨admits s o, within.1⟩ (ih _ _ within.2)

/-- Whether every operation passes a check, on the state it is met in. -/
def checked (player : Player I S) (ok : S → I.Op → Bool) : Prog I A → S → Bool
  | .done _, _ => true
  | .perform o next, s => ok s o && (next (player s o).1).checked player ok (player s o).2

lemma checked_runs {player : Player I S} {ok : S → I.Op → Bool}
    (admits : ∀ s o, ok s o = true → W s ⟨o, (player s o).1⟩ (player s o).2) (p : Prog I A) (s : S)
    (passed : p.checked player ok s = true) :
    Runs W p s (p.play player s).1 (.done (p.play player s).2.1) (p.play player s).2.2 := by
  induction p generalizing s with
  | done a => exact .stop
  | perform o next ih =>
    obtain ⟨here, rest⟩ := Bool.and_eq_true_iff.mp passed
    exact .next (admits s o here) (ih _ _ rest)

/-- The first operations of that run. -/
def playFor (player : Player I S) : Nat → Prog I A → S → Trace I × Prog I A × S
  | 0, p, s => ([], p, s)
  | _ + 1, .done a, s => ([], .done a, s)
  | n + 1, .perform o next, s =>
    let rest := (next (player s o).1).playFor player n (player s o).2
    (⟨o, (player s o).1⟩ :: rest.1, rest.2)

lemma playFor_runs {player : Player I S}
    (admits : ∀ s o, W s ⟨o, (player s o).1⟩ (player s o).2) (n : Nat) (p : Prog I A) (s : S) :
    Runs W p s (p.playFor player n s).1 (p.playFor player n s).2.1 (p.playFor player n s).2.2 := by
  induction n generalizing p s with
  | zero => exact .stop
  | succ n ih =>
    cases p with
    | done a => exact .stop
    | perform o next => exact .next (admits s o) (ih _ _)

lemma play_noted (player : Player I S) (note : I.Op → List N) (p : Prog I A) (s : S × List N) :
    (p.play (player.noting note) s).2.2.2 =
      s.2 ++ (p.play (player.noting note) s).1.flatMap fun e => note e.op := by
  induction p generalizing s with
  | done a => simp [play]
  | perform o next ih =>
    simp only [play, List.flatMap_cons, ih]
    simp [Player.noting]

/-- The run against the player ends with the postcondition. -/
def Against (player : Player I S) (post : A → S → Prop) : Prog I A → S → Prop
  | .done a, s => post a s
  | .perform o next, s => (next (player s o).1).Against player post (player s o).2

variable {player : Player I S} {post : A → S → Prop} {s : S}

lemma Against.play (won : p.Against player post s) : post (p.play player s).2.1 (p.play player s).2.2 := by
  induction p generalizing s with
  | done a => exact won
  | perform o next ih => exact ih _ won

lemma Against.bind {f : A → Prog I B} {post : B → S → Prop}
    (first : p.Against player (fun a t => (f a).Against player post t) s) : (p >>= f).Against player post s := by
  change (p.bind f).Against player post s
  induction p generalizing s with
  | done a => exact first
  | perform o next ih => exact ih _ first

lemma Against.of_bind {f : A → Prog I B} {post : B → S → Prop}
    (whole : (p >>= f).Against player post s) : p.Against player (fun a t => (f a).Against player post t) s := by
  change (p.bind f).Against player post s at whole
  induction p generalizing s with
  | done a => exact whole
  | perform o next ih => exact ih _ whole

lemma Against.mono {post' : A → S → Prop} (won : p.Against player post s)
    (weaker : ∀ a t, post a t → post' a t) : p.Against player post' s := by
  induction p generalizing s with
  | done a => exact weaker a s won
  | perform o next ih => exact ih _ won

lemma Only.against {Q : I.Op → Prop} (quiet : p.Only Q)
    (aside : ∀ o, Q o → (player s o).2 = s) (result : ∀ a, post a s) : p.Against player post s := by
  induction p with
  | done a => exact result a
  | perform o next ih =>
    change (next _).Against player post (player s o).2
    rw [aside o quiet.1]
    exact ih _ (quiet.2 _)

lemma Only.keeps {Q : I.Op → Prop} {inv : S → Prop} (only : p.Only Q)
    (step : ∀ s o, Q o → inv s → inv (player s o).2) (start : inv s) : p.Against player (fun _ t => inv t) s := by
  induction p generalizing s with
  | done a => exact start
  | perform o next ih => exact ih _ (only.2 _) (step s o only.1 start)

end Prog

end EmailVerifier.Semantics
