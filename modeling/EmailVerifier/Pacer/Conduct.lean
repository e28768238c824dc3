import EmailVerifier.Pacer.Calls
import EmailVerifier.Semantics.Protocol

/-! What the calls may do to the state: most of what they perform neither loads a key nor
sets a pause, in memory or in the store. -/

set_option autoImplicit false

namespace EmailVerifier.Pacer
open Text Data Semantics

abbrev pauseField (key : Str) : Str := runtimeKey key "pause_until"

lemma pauseField_inj {key key' : Str} (same : pauseField key = pauseField key') : key = key' := by
  unfold pauseField runtimeKey at same
  have tail := List.append_cancel_right (List.append_cancel_right same)
  exact List.append_cancel_left tail

-- The fields end in different letters.
lemma runtimeKey_ne_pauseField {field : String} (key key' : Str) (other : (lit field).getLast? ≠ some 108)
    (filled : lit field ≠ []) : runtimeKey key field ≠ pauseField key' := by
  intro same
  have last := congrArg List.getLast? same
  unfold pauseField runtimeKey at last
  rw [List.getLast?_append_of_ne_nil _ filled, List.getLast?_append_of_ne_nil _ (by decide)] at last
  exact other last

lemma runtimeKey_ne_limitsKey (key key' : Str) (field : String) : runtimeKey key field ≠ limitsKey key' := by
  intro same
  have first : (limitsKey key').head? = some 108 := rfl
  have first' : (runtimeKey key field).head? = some 114 := rfl
  rw [← same, first'] at first
  cases first

lemma limitsKey_ne_pauseField (key key' : Str) : limitsKey key ≠ pauseField key' :=
  (runtimeKey_ne_limitsKey key' key "pause_until").symm

def Section.calm : Section → Bool
  | .observe _ _ | .pauseKey _ _ | .resumeKey _ => false
  | _ => true

def Op.calm : Op → Prop
  | .locked sec => sec.calm = true
  | .set key _ => ∀ key', key ≠ pauseField key'
  | _ => True

def Section.loads : Section → Bool
  | .install _ _ _ => true
  | _ => false

def Op.tame : Op → Prop
  | .locked sec => sec.calm = true ∧ sec.loads = false
  | .set key _ => ∀ key', key ≠ pauseField key'
  | _ => True

lemma tame_calm (op : Op) (tame : op.tame) : op.calm := by
  cases op with
  | locked sec => exact tame.1
  | set key val => exact tame
  | _ => trivial

/-- Operations that neither the entries nor the store have to do with. -/
def Op.outward : Op → Prop
  | .now | .take _ _ _ | .lease _ _ _ | .release _ _ | .after _ | .pause _ | .leaseWait _ => True
  | .locked (.enter _) | .locked (.leave _) => True
  | _ => False

lemma outward_tame (op : Op) (outward : op.outward) : op.tame := by
  cases op with
  | locked sec => cases sec <;> first | exact ⟨rfl, rfl⟩ | exact outward.elim
  | get key | set key val => exact outward.elim
  | _ => trivial

section
variable {A : Type}

lemma ask_outward {op : Op} {f : op.Answer → Act A} (rest : ∀ a, (f a).Only Op.outward)
    (fine : op.outward := by exact trivial) : (Prog.ask (I := calls) op >>= f).Only Op.outward :=
  .bind ((Prog.only_ask _).mpr fine) rest

lemma ask_tame {op : Op} {f : op.Answer → Act A} (rest : ∀ a, (f a).Only Op.tame)
    (fine : op.tame := by first | exact trivial | exact ⟨rfl, rfl⟩) : (Prog.ask (I := calls) op >>= f).Only Op.tame :=
  .bind ((Prog.only_ask _).mpr fine) rest

lemma takeToken_outward (key : Str) (rate burst : ℚ) (fuel : Nat) : (takeToken key rate burst fuel).Only Op.outward := by
  induction fuel with
  | zero => exact Prog.only_pure _
  | succ fuel ih =>
    refine ask_outward fun taken => ?_
    cases taken with
    | error err => exact Prog.only_pure _
    | ok d =>
      dsimp only
      split
      · exact Prog.only_pure _
      · refine ask_outward fun waited => ?_
        cases waited with
        | error err => exact Prog.only_pure _
        | ok _ => exact ih

lemma recordLease_outward (o : Options) (refused : Bool) : (recordLease o refused).Only Op.outward := by
  unfold recordLease
  split
  · exact (Prog.only_ask _).mpr trivial
  · exact Prog.only_pure _

lemma takeLease_outward (o : Options) (key : Str) (limit : Int) (start : Time) (refused : Bool) (fuel : Nat) :
    (takeLease o key limit start refused fuel).Only Op.outward := by
  induction fuel generalizing refused with
  | zero => exact Prog.only_pure _
  | succ fuel ih =>
    refine ask_outward fun leased => ?_
    cases leased with
    | error err => exact ask_outward fun _ => Prog.only_pure _
    | ok d =>
      dsimp only
      split
      · refine ask_outward fun t => ?_
        apply Prog.Only.bind (recordLease_outward o refused)
        intro _
        exact ask_outward fun _ => Prog.only_pure _
      · refine ask_outward fun t => ?_
        have refusal : ∀ till : Time → Time, (do
            let since := (← now).Sub start
            return some (.error (.paused key (till (← now))), since) :
            Act (Option (Except Failure Room × Int))).Only Op.outward := fun _ =>
          ask_outward fun _ => ask_outward fun _ => Prog.only_pure _
        split
        · split
          · exact ask_outward fun _ => refusal fun t => t.Add _
          · exact refusal fun t => t.Add _
        · refine ask_outward fun waited => ?_
          cases waited with
          | error err => exact ask_outward fun _ => Prog.only_pure _
          | ok _ => exact ih true

lemma takeToken_tame (key : Str) (rate burst : ℚ) (fuel : Nat) : (takeToken key rate burst fuel).Only Op.tame :=
  (takeToken_outward key rate burst fuel).mono outward_tame

lemma takeLease_tame (o : Options) (key : Str) (limit : Int) (start : Time) (refused : Bool) (fuel : Nat) :
    (takeLease o key limit start refused fuel).Only Op.tame :=
  (takeLease_outward o key limit start refused fuel).mono outward_tame

section
variable [Unicode] [Codec]

omit [Codec] in
lemma ProposalKey_eq (mxHost : Str) : ProposalKey mxHost = limitsKey (PaceKey mxHost ++ lit ":proposed") := by
  simp only [ProposalKey, limitsKey, List.append_assoc]

omit [Codec] in
lemma ProposalKey_ne_pauseField (mxHost key' : Str) : ProposalKey mxHost ≠ pauseField key' := by
  rw [ProposalKey_eq]
  exact limitsKey_ne_pauseField _ _

lemma proposeBand_tame (o : Options) (key : Str) (st : MXState) : (proposeBand o key st).Only Op.tame := by
  unfold proposeBand
  dsimp only
  split
  · exact Prog.only_pure _
  · refine ask_tame fun formedAt => ask_tame (fun _ => Prog.only_pure _) ?_
    exact ProposalKey_ne_pauseField key

lemma Promote_tame (mxHost : Str) : (Promote mxHost).Only Op.tame := by
  have proposal : (standingProposal (PaceKey mxHost)).Only Op.tame := ask_tame fun _ => Prog.only_pure _
  refine .bind proposal fun found => ?_
  cases found with
  | none => exact Prog.only_pure _
  | some pr =>
    refine .bind (ask_tame fun _ => Prog.only_pure _) fun band => ?_
    split
    · exact Prog.only_pure _
    · refine ask_tame (fun written => ?_) (limitsKey_ne_pauseField _)
      cases written with
      | error err => exact Prog.only_pure _
      | ok _ =>
        refine ask_tame (fun cleared => ?_) (ProposalKey_ne_pauseField _)
        cases cleared with
        | error err => exact Prog.only_pure _
        | ok _ => exact ask_tame fun _ => Prog.only_pure _

end

end

end EmailVerifier.Pacer
