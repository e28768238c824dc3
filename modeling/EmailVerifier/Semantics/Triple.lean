import EmailVerifier.Semantics.Protocol

/-! Postconditions of programs in a given world.

A program ensures a postcondition from a state when every run in the world that ends
there ends with it. The rules go by the shape of the program, as those for protocols do;
here the world answers and the state is the world's.
-/

set_option autoImplicit false

namespace EmailVerifier.Semantics

variable {I : Interface} {A B S : Type}

namespace Prog

/-- Whatever the world answers, the value returned and the state left meet the
postcondition. -/
def Ensures (W : World I S) (post : A → S → Prop) : Prog I A → S → Prop
  | .done a, s => post a s
  | .perform o next, s => ∀ a s', W s ⟨o, a⟩ s' → (next a).Ensures W post s'

variable {W : World I S} {post : A → S → Prop} {s : S}

variable {p : Prog I A} {f : A → Prog I B} {M : Type} {Q : I.Op → Prop}

lemma Ensures.bind {post : B → S → Prop}
    (first : p.Ensures W (fun a s' => (f a).Ensures W post s') s) : (p >>= f).Ensures W post s := by
  change (p.bind f).Ensures W post s
  induction p generalizing s with
  | done a => exact first
  | perform o next ih => exact fun a s' answered => ih a (first a s' answered)

lemma Ensures.mono {post' : A → S → Prop} (h : p.Ensures W post s)
    (weaker : ∀ a s', post a s' → post' a s') : p.Ensures W post' s := by
  induction p generalizing s with
  | done a => exact weaker a s h
  | perform o next ih => exact fun a s' answered => ih a (h a s' answered)

lemma Ensures.andThen {post' : B → S → Prop} (first : p.Ensures W post s)
    (rest : ∀ a s', post a s' → (f a).Ensures W post' s') : (p >>= f).Ensures W post' s := .bind (first.mono rest)

lemma Ensures.of_bind {post : B → S → Prop} (whole : (p >>= f).Ensures W post s) :
    p.Ensures W (fun a s' => (f a).Ensures W post s') s := by
  change (p.bind f).Ensures W post s at whole
  induction p generalizing s with
  | done a => exact whole
  | perform o next ih => exact fun x s' answered => ih x (whole x s' answered)

lemma Ensures.always (all : ∀ a s', post a s') : p.Ensures W post s := by
  induction p generalizing s with
  | done a => exact all a s
  | perform o next ih => exact fun a s' _ => ih a

lemma Ensures.keeping {inv : S → Prop} (h : p.Ensures W post s)
    (step : ∀ s e s', inv s → W s e s' → inv s') (start : inv s) : p.Ensures W (fun a s' => post a s' ∧ inv s') s := by
  induction p generalizing s with
  | done a => exact ⟨h, start⟩
  | perform o next ih => exact fun a s' answered => ih a (h a s' answered) (step s _ s' start answered)

/-- What a bystander is sure to find is ensured in every world whose state is what
the bystander notes. -/
lemma Follows.ensures {note : S → Event I → S} (h : p.Follows (World.noting note) post s)
    (notes : ∀ s e s', W s e s' → s' = note s e) : p.Ensures W post s := by
  induction p generalizing s with
  | done a => exact h
  | perform o next ih =>
    intro a s' answered
    obtain ⟨noted, same, rest⟩ := h a
    rw [notes s _ s' answered, ← same]
    exact ih a rest

lemma Only.ensures {inv : S → Prop} (only : p.Only Q)
    (step : ∀ s e s', Q e.op → inv s → W s e s' → inv s') (start : inv s) : p.Ensures W (fun _ s' => inv s') s := by
  induction p generalizing s with
  | done a => exact start
  | perform o next ih => exact fun a s' answered => ih a (only.2 a) (step _ _ _ only.1 start answered)

lemma Ensures.and {post' : A → S → Prop} (h : p.Ensures W post s) (h' : p.Ensures W post' s) :
    p.Ensures W (fun a s' => post a s' ∧ post' a s') s := by
  induction p generalizing s with
  | done a => exact ⟨h, h'⟩
  | perform o next ih => exact fun a s' answered => ih a (h a s' answered) (h' a s' answered)

/-- What a protocol promises of the value returned is ensured in every world. -/
lemma Follows.promises {P : World I M} {post : A → M → Prop} {m : M}
    (h : p.Follows P post m) : p.Ensures W (fun a _ => ∃ m', post a m') s := by
  induction p generalizing m s with
  | done a => exact ⟨m, h⟩
  | perform o next ih =>
    intro a s' _
    obtain ⟨m', -, rest⟩ := h a
    exact ih a rest

/-- What is ensured before a bystander, of a program whose operations a protocol takes no
notice of, is promised under the protocol. -/
lemma Ensures.aside {P : World I M} {note : S → Event I → S} {fact : A → Prop}
    {m : M} (h : p.Ensures (World.noting note) (fun a _ => fact a) s) (quiet : p.Only Q)
    (aside : ∀ o a, Q o → P m ⟨o, a⟩ m) : p.Follows P (fun a m' => m' = m ∧ fact a) m := by
  induction p generalizing s with
  | done a => exact ⟨rfl, h⟩
  | perform o next ih => exact fun a => ⟨m, aside o a quiet.1, ih a (h a _ rfl) (quiet.2 a)⟩

lemma Ensures.anywhere {note : M → Event I → M} {m : M} {fact : A → Prop}
    (h : p.Ensures (World.noting note) (fun a _ => fact a) m) : p.Ensures W (fun a _ => fact a) s := by
  induction p generalizing s m with
  | done a => exact h
  | perform o next ih => exact fun x s' _ => ih x (h x _ rfl)

lemma Ensures.value [∀ o, Nonempty (I.Answer o)] {fact : B → Prop} {b : B}
    (h : (p >>= fun _ => pure b).Ensures World.free (fun b _ => fact b) ()) : fact b := by
  replace h := h.of_bind
  induction p with
  | done a => exact h
  | perform o next ih =>
    obtain ⟨x⟩ := (inferInstance : Nonempty (I.Answer o))
    exact ih x (h x () trivial)

/-- What is ensured holds where a run ends. -/
lemma Ensures.result {a : A} {t : S} {tr : Trace I} (h : p.Ensures W post s)
    (run : Runs W p s tr (.done a) t) : post a t := by
  generalize same : Prog.done a = q at run
  induction run with
  | stop =>
    subst same
    exact h
  | next answered _ ih => exact ih (h _ _ answered) same

/-- Every event of every run in the world satisfies `P`, however early the run stops. -/
def Upholds (W : World I S) (P : Event I → Prop) : Prog I A → S → Prop
  | .done _, _ => True
  | .perform o next, s => ∀ a s', W s ⟨o, a⟩ s' → P ⟨o, a⟩ ∧ (next a).Upholds W P s'

variable {P : Event I → Prop}

lemma Upholds.bind (first : p.Upholds W P s)
    (rest : p.Ensures W (fun a s' => (f a).Upholds W P s') s) : (p >>= f).Upholds W P s := by
  change (p.bind f).Upholds W P s
  induction p generalizing s with
  | done a => exact rest
  | perform o next ih =>
    intro a s' answered
    obtain ⟨holds, later⟩ := first a s' answered
    exact ⟨holds, ih a later (rest a s' answered)⟩

lemma Upholds.andThen (first : p.Upholds W P s) (rest : ∀ a s', (f a).Upholds W P s') : (p >>= f).Upholds W P s := by
  refine first.bind ?_
  clear first
  induction p generalizing s with
  | done a => exact rest a s
  | perform o next ih => exact fun a s' _ => ih a

lemma Only.upholds (only : p.Only Q) (fine : ∀ e, Q e.op → P e) : p.Upholds W P s := by
  induction p generalizing s with
  | done a => trivial
  | perform o next ih => exact fun a s' _ => ⟨fine _ only.1, ih a (only.2 a)⟩

lemma Follows.upholds {Q : World I M} {post : A → M → Prop} {m : M}
    (h : p.Follows Q post m) (fine : ∀ m e m', Q m e m' → P e) : p.Upholds W P s := by
  induction p generalizing m s with
  | done a => trivial
  | perform o next ih =>
    intro a s' _
    obtain ⟨m', step, rest⟩ := h a
    exact ⟨fine _ _ _ step, ih a rest⟩

lemma Upholds.run {q : Prog I A} {t : S} {tr : Trace I} (h : p.Upholds W P s) (run : Runs W p s tr q t) :
    ∀ e ∈ tr, P e := by
  induction run with
  | stop => simp
  | next answered _ ih =>
    obtain ⟨holds, later⟩ := h _ _ answered
    exact List.forall_mem_cons.mpr ⟨holds, ih later⟩

end Prog

end EmailVerifier.Semantics
