import EmailVerifier.Prober.SessionRules
import EmailVerifier.Prober.Surroundings

/-! What a catch-all verdict rests on.

The replies to bogus recipients are read off the trace of `askCatchAll`. The verdict
counts the accepted ones against all of them, so a reply that answers nothing (a
deferral, a policy refusal) weighs like a rejection.
-/

set_option autoImplicit false

namespace EmailVerifier.Prober
open Text Data Semantics

structure Decoys where
  due : Bool := false
  replies : List Reply := []

def Decoys.next (d : Decoys) : Event calls → Decoys
  | ⟨.write _ (.bogus _), .ok _⟩ => { d with due := true }
  | ⟨.write _ _, _⟩ => { d with due := false }
  | ⟨.readReply _, .ok reply⟩ => { due := false, replies := if d.due then d.replies ++ [reply] else d.replies }
  | ⟨.readReply _, .error _⟩ => { d with due := false }
  | _ => d

def bogusReplies (tr : Trace calls) : List Reply := (tr.foldl Decoys.next {}).replies

/-- The verdict a list of classes gives: the accepted ones against all of them. -/
def verdictOf (classes : List Class) : CatchAllVerdict :=
  decideCatchAll (classes.count .valid) classes.length

structure Grounded (v : CatchAllVerdict) (classes : List Class) : Prop where
  honest : v.catchAll = some false → .invalid ∈ classes
  coinFlip : v.randomiser = some true → .valid ∈ classes ∧ .invalid ∈ classes
  definitive : v = verdictOf (classes.filter fun cls => cls.IsVerdict)

lemma count_valid_lt_iff (classes : List Class) :
    classes.count .valid < classes.length ↔ ∃ cls ∈ classes, cls ≠ .valid := by
  rw [List.count_le_length.lt_iff_ne, ne_eq, List.count_eq_length]
  simp [eq_comm]

lemma verdictOf_cases (classes : List Class) :
    (∀ cls ∈ classes, cls = .valid) ∧ (verdictOf classes).catchAll ≠ some false ∧
        (verdictOf classes).randomiser ≠ some true ∨
      .valid ∉ classes ∧ (∃ cls ∈ classes, cls ≠ .valid) ∧
        verdictOf classes = { catchAll := some false, randomiser := some false } ∨
      .valid ∈ classes ∧ (∃ cls ∈ classes, cls ≠ .valid) ∧
        verdictOf classes = { catchAll := some true, randomiser := some true } := by
  by_cases all : ∀ cls ∈ classes, cls = .valid
  · left
    have same : classes.count .valid = classes.length := List.count_eq_length.mpr fun cls member => (all cls member).symm
    refine ⟨all, ?_⟩
    unfold verdictOf decideCatchAll
    rw [same]
    split <;> simp
  · right
    have other : ∃ cls ∈ classes, cls ≠ .valid := by simpa using all
    have fewer := (count_valid_lt_iff classes).mpr other
    have some_ : classes.length ≠ 0 := by omega
    by_cases accepted : .valid ∈ classes
    · right
      have positive := List.count_pos_iff.mpr accepted
      exact ⟨accepted, other, by simp [verdictOf, decideCatchAll, some_, fewer.ne, positive.ne']⟩
    · left
      have none := List.count_eq_zero.mpr accepted
      refine ⟨accepted, other, ?_⟩
      rw [none] at fewer
      simp [verdictOf, decideCatchAll, none, some_, fewer.ne]

lemma exists_definitive_iff (classes : List Class) :
    (∃ cls ∈ classes.filter fun cls => cls.IsVerdict, cls ≠ .valid) ↔ .invalid ∈ classes := by
  constructor
  · rintro ⟨cls, member, other⟩
    obtain ⟨present, verdict⟩ := List.mem_filter.mp member
    rcases of_decide_eq_true verdict with rfl | rfl
    · exact absurd rfl other
    · exact present
  · intro member
    exact ⟨.invalid, List.mem_filter.mpr ⟨member, by decide⟩, by decide⟩

lemma verdictOf_filter {classes : List Class} (rejected : .invalid ∈ classes) :
    verdictOf (classes.filter fun cls => cls.IsVerdict) = verdictOf classes := by
  have other : ∃ cls ∈ classes, cls ≠ .valid := ⟨_, rejected, by decide⟩
  have other' := (exists_definitive_iff classes).mpr rejected
  have valid : .valid ∈ classes.filter (fun cls => cls.IsVerdict) ↔ .valid ∈ classes := by
    simp [List.mem_filter, Class.IsVerdict]
  rcases verdictOf_cases classes with ⟨all, -⟩ | ⟨absent, -, same⟩ | ⟨present, -, same⟩
  · exact absurd (all _ rejected) (by decide)
  · rcases verdictOf_cases (classes.filter fun cls => cls.IsVerdict) with ⟨all, -⟩ | ⟨-, -, same'⟩ | ⟨present, -⟩
    · obtain ⟨cls, member, other⟩ := other'
      exact absurd (all cls member) other
    · rw [same, same']
    · exact absurd (valid.mp present) absent
  · rcases verdictOf_cases (classes.filter fun cls => cls.IsVerdict) with ⟨all, -⟩ | ⟨absent, -⟩ | ⟨-, -, same'⟩
    · obtain ⟨cls, member, other⟩ := other'
      exact absurd (all cls member) other
    · exact absurd (valid.mpr present) absent
    · rw [same, same']

lemma grounded_iff (classes : List Class) :
    Grounded (verdictOf classes) classes ↔ .invalid ∈ classes ∨ ∀ cls ∈ classes, cls = .valid := by
  constructor
  · intro grounded
    rcases verdictOf_cases classes with ⟨all, -⟩ | ⟨-, -, same⟩ | ⟨-, -, same⟩
    · exact .inr all
    · exact .inl (grounded.honest (by rw [same]))
    · exact .inl (grounded.coinFlip (by rw [same])).2
  · rintro (rejected | all)
    · refine ⟨fun _ => rejected, fun flip => ⟨?_, rejected⟩, (verdictOf_filter rejected).symm⟩
      rcases verdictOf_cases classes with ⟨-, -, steady⟩ | ⟨-, -, same⟩ | ⟨present, -⟩
      · exact absurd flip steady
      · rw [same] at flip
        cases flip
      · exact present
    · have kept : classes.filter (fun cls => cls.IsVerdict) = classes :=
        List.filter_eq_self.mpr fun cls member => decide_eq_true (.inl (all cls member))
      rcases verdictOf_cases classes with ⟨-, dishonest, steady⟩ | ⟨-, ⟨cls, member, other⟩, -⟩ | ⟨-, ⟨cls, member, other⟩, -⟩
      · exact ⟨fun honest => absurd honest dishonest, fun flip => absurd flip steady, by rw [kept]⟩
      · exact absurd (all cls member) other
      · exact absurd (all cls member) other

def Unheard : Op → Prop
  | .write _ _ | .readReply _ => False
  | _ => True

lemma Aside.unheard {op : Op} (aside : Aside op) : Unheard op := by
  cases op <;> trivial

lemma Decoys.next_unheard (d : Decoys) {op : Op} (unheard : Unheard op) (a : op.Answer) : d.next ⟨op, a⟩ = d := by
  cases op <;> first | rfl | cases unheard

lemma unheard_then {A B : Type} {post : B → Decoys → Prop} {p : Act A} {f : A → Act B} {d : Decoys}
    (only : p.Only Unheard) (rest : ∀ a, (f a).Follows (World.noting Decoys.next) post d) :
    (p >>= f).Follows (World.noting Decoys.next) post d :=
  .bind (only.follows (fun _ a unheard => (d.next_unheard unheard a).symm) rest)

section
variable [Unicode] {o : Options} {req : Request} {conn : Conn}

def Options.classOf (o : Options) (reply : Reply) : Class := classifyAs reply.code reply.text o.identity

def bogusClasses (o : Options) (tr : Trace calls) : List Class := (bogusReplies tr).map o.classOf

/-- The counts of the loop are those of the replies heard since it began. -/
structure Tallied (o : Options) (accepted answered : Nat) (before : List Reply) (counts : Nat × Nat)
    (d : Decoys) : Prop where
  counted : ∃ heard, d.replies = before ++ heard ∧
    counts = (accepted + (heard.map o.classOf).count .valid, answered + heard.length)

lemma Tallied.rfl {accepted answered : Nat} {d : Decoys} :
    Tallied o accepted answered d.replies (accepted, answered) d := ⟨[], by simp⟩

lemma Tallied.cons {accepted next answered : Nat} {before : List Reply} {reply : Reply}
    {counts : Nat × Nat} {d : Decoys} (counted : next = accepted + if o.classOf reply = .valid then 1 else 0)
    (rest : Tallied o next (answered + 1) (before ++ [reply]) counts d) :
    Tallied o accepted answered before counts d := by
  obtain ⟨heard, same, total⟩ := rest
  refine ⟨reply :: heard, by simp [same], ?_⟩
  rw [total, counted, List.map_cons, List.count_cons, List.length_cons]
  simp only [beq_iff_eq, Prod.mk.injEq]
  omega

lemma askBogus_tallied {domain : Str} {audit : Bool} {n accepted answered : Nat} {d : Decoys} :
    (askBogus o req conn domain audit n accepted answered).Follows (World.noting Decoys.next)
      (Tallied o accepted answered d.replies) d := by
  induction n generalizing d accepted answered with
  | zero => exact .rfl
  | succ n ih =>
    refine unheard_then (bogusAddress_uses trivial) fun drawn => ?_
    cases drawn with
    | error err => exact Tallied.rfl
    | ok bogus =>
      refine unheard_then (acquire_uses trivial trivial) fun granted => ?_
      cases granted with
      | error err => exact Tallied.rfl
      | ok _ =>
        refine .bind (.bind (.ask fun written => ⟨_, rfl, ?_⟩))
        cases written with
        | error err => exact Tallied.rfl (d := { d with due := false })
        | ok _ =>
          refine .ask fun read => ⟨_, rfl, ?_⟩
          cases read with
          | error err => exact Tallied.rfl (d := { d with due := false })
          | ok reply =>
            -- the reply is heard; what the rest of the loop hears comes after it
            have further {next : Nat} (counted : next = accepted + if o.classOf reply = .valid then 1 else 0) :
                (askBogus o req conn domain audit n next (answered + 1)).Follows (World.noting Decoys.next)
                  (Tallied o accepted answered d.replies) { due := false, replies := d.replies ++ [reply] } :=
              ih.mono fun _ _ rest => rest.cons counted
            dsimp only
            split
            · rename_i valid
              exact further (by simp [Options.classOf, valid])
            · rename_i other
              have counted : accepted = accepted + if o.classOf reply = .valid then 1 else 0 := by
                simp [Options.classOf, other]
              split
              · exact further counted
              · exact .cons counted (Tallied.rfl (d := { due := false, replies := d.replies ++ [reply] }))

lemma askCatchAll_verdict {domain : Str} {addrs : List Str} {out : Results} :
    (askCatchAll o req conn domain addrs out).Follows (World.noting Decoys.next)
      (fun v d => v = verdictOf (d.replies.map o.classOf)) {} := by
  unfold askCatchAll
  split
  · refine unheard_then ((auditDrawn_only o).mono fun _ quiet => quiet.aside.unheard) fun audit => ?_
    refine askBogus_tallied.andThen fun counts d tallied => ?_
    obtain ⟨heard, same, rfl⟩ := tallied.counted
    refine unheard_then ((countCatchAll_only _ _).mono fun _ quiet => quiet.aside.unheard) fun _ => ?_
    change _ = verdictOf _
    rw [same]
    simp [verdictOf]
  · exact unheard_then ((countCatchAll_only _ _).mono fun _ quiet => quiet.aside.unheard) fun _ => rfl

/-- The verdict rests on definitive answers exactly when one of the bogus recipients
was rejected, or every one of them accepted. -/
theorem askCatchAll_grounded_iff {S : Type} {W : World calls S} {s t : S} {domain : Str} {addrs : List Str}
    {out : Results} {tr : Trace calls} {v : CatchAllVerdict}
    (run : Runs W (askCatchAll o req conn domain addrs out) s tr (.done v) t) :
    Grounded v (bogusClasses o tr) ↔
      .invalid ∈ bogusClasses o tr ∨ ∀ cls ∈ bogusClasses o tr, cls = .valid := by
  obtain ⟨d, path, verdict⟩ := askCatchAll_verdict.path run
  have verdict : v = verdictOf (bogusClasses o tr) := by
    rw [bogusClasses, bogusReplies, ← path.noted]
    exact verdict
  rw [verdict]
  exact grounded_iff _

end

def acceptedOnce : Results := AList.insert (lit "a@b") { cls := .valid } ∅

/-- A host that accepts every bogus recipient is rightly called a catch-all. -/
theorem accepted_bogus_grounded : ∃ tr v,
    Runs anyone (askCatchAll {} oneAddress ⟨0, false⟩ (lit "b") [lit "a@b"] acceptedOnce) () tr (.done v) () ∧
    v.catchAll = some true ∧ Grounded v (bogusClasses {} tr) := by
  let p := askCatchAll {} oneAddress ⟨0, false⟩ (lit "b") [lit "a@b"] acceptedOnce
  have run := play_anyone granting_readable p false
  have valid : ∀ cls ∈ bogusClasses {} (p.play granting false).1, cls = .valid := by decide +kernel
  have accepts : (p.play granting false).2.1.catchAll = some true := by decide +kernel
  exact ⟨_, _, run, accepts, (askCatchAll_grounded_iff run).mpr (.inr valid)⟩

def later : Reply where
  code := 450
  text := lit "450"

/-- A bogus recipient that is only deferred passes for one that was rejected. -/
theorem deferred_bogus_reads_as_rejected : ∃ tr v,
    Runs anyone (askCatchAll {} oneAddress ⟨0, false⟩ (lit "b") [lit "a@b"] acceptedOnce) () tr (.done v) () ∧
    bogusClasses {} tr = [.deferred] ∧ v.catchAll = some false ∧ ¬Grounded v (bogusClasses {} tr) := by
  have formed : later.Formed := ⟨lit "450\r\n", [], by decide⟩
  let p := askCatchAll {} oneAddress ⟨0, false⟩ (lit "b") [lit "a@b"] acceptedOnce
  have run := play_anyone (answering_readable formed) p false
  have classes : bogusClasses {} (p.play (answering later) false).1 = [.deferred] := by decide +kernel
  have honest : (p.play (answering later) false).2.1.catchAll = some false := by decide +kernel
  refine ⟨_, _, run, classes, honest, fun grounded => ?_⟩
  have rejected := grounded.honest honest
  rw [classes] at rejected
  simp at rejected

end EmailVerifier.Prober
