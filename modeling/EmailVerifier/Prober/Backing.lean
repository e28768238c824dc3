import EmailVerifier.Prober.Session

/-! What stands behind a result.

A result either reports no answer, and then says nothing about the mailbox, or it is
the reading of a reply that answered the address's own question. Whatever a session
stamps on its results afterwards leaves that as it is.
-/

set_option autoImplicit false

namespace EmailVerifier.Prober
open Text Data

structure Unanswered (r : Result) : Prop where
  connected : r.connected = some false
  accepted : r.accepted = none
  cls : ¬ r.cls.IsVerdict

lemma classifyNetErr_not_verdict (err : Failure) : ¬ (classifyNetErr err).IsVerdict := by
  unfold classifyNetErr Class.IsVerdict
  split <;> simp

lemma budgetClass_not_verdict (err : Failure) : ¬ (budgetClass err).IsVerdict := by
  unfold budgetClass Class.IsVerdict
  split <;> simp

lemma dropped_unanswered {cls : Class} {err : Failure} (about : ¬ cls.IsVerdict) :
    Unanswered (dropped cls err) := ⟨rfl, rfl, about⟩

lemma stoppedFor_unanswered (n : Nat) : Unanswered (stoppedFor n) :=
  ⟨rfl, rfl, by simp [stoppedFor, Class.IsVerdict]⟩

def Result.SameAnswer (r base : Result) : Prop :=
  r = { base with catchAll := r.catchAll, randomiser := r.randomiser, tls := r.tls }

lemma Result.SameAnswer.trans {s r base : Result} (second : s.SameAnswer r) (first : r.SameAnswer base) :
    s.SameAnswer base := by
  unfold SameAnswer at *
  rw [first] at second
  exact second

section Backing
variable [Unicode]

inductive Backed (o : Options) (answers : List (Str × Reply)) (addr : Str) (r : Result) : Prop where
  | answered {reply : Reply} {relay : Bool} : (addr, reply) ∈ answers →
      r.SameAnswer (answerResult o reply relay) → Backed o answers addr r
  | unanswered : Unanswered r → Backed o answers addr r

def AllBacked (o : Options) (answers : List (Str × Reply)) (results : Results) : Prop :=
  ∀ addr r, results.lookup addr = some r → Backed o answers addr r

variable {o : Options} {answers : List (Str × Reply)} {addr : Str} {r : Result}

lemma answerResult_connected (reply : Reply) (relay : Bool) : (answerResult o reply relay).connected = some true := by
  unfold answerResult
  cases relay <;> rfl

lemma Backed.mono {more : List (Str × Reply)} (backed : Backed o answers addr r)
    (grown : answers <+: more) : Backed o more addr r := by
  cases backed with
  | answered member same => exact .answered (grown.subset member) same
  | unanswered none => exact .unanswered none

lemma AllBacked.mono {more : List (Str × Reply)} {results : Results}
    (backed : AllBacked o answers results) (grown : answers <+: more) : AllBacked o more results :=
  fun addr r found => (backed addr r found).mono grown

lemma AllBacked.empty : AllBacked o answers ∅ := fun addr r found => by simp at found

lemma AllBacked.insert {results : Results} (backed : AllBacked o answers results)
    (fresh : Backed o answers addr r) : AllBacked o answers (results.insert addr r) := by
  intro other s found
  rw [Table.lookup_insert_ite] at found
  split at found
  · rename_i same
    cases found
    rwa [same]
  · exact backed other s found

lemma AllBacked.setAll {results : Results} {addrs : List Str} (backed : AllBacked o answers results)
    (none : Unanswered r) : AllBacked o answers (Table.setAll addrs r results) := by
  intro other s found
  rw [Table.lookup_setAll] at found
  split at found
  · cases found
    exact .unanswered none
  · exact backed other s found

lemma AllBacked.overlay {new old : Results} (fresh : AllBacked o answers new)
    (backed : AllBacked o answers old) : AllBacked o answers (Table.overlay new old) := by
  intro addr r found
  rw [Table.lookup_overlay] at found
  rcases Option.or_eq_some_iff.mp found with here | ⟨-, here⟩
  · exact fresh addr r here
  · exact backed addr r here

lemma AllBacked.mapVals {results : Results} {f : Str → Result → Result} (backed : AllBacked o answers results)
    (keeps : ∀ addr r, Backed o answers addr r → Backed o answers addr (f addr r)) :
    AllBacked o answers (results.mapVals f) := by
  intro addr r found
  rw [Table.lookup_mapVals] at found
  obtain ⟨s, here, rfl⟩ := Option.map_eq_some_iff.mp found
  exact keeps addr s (backed addr s here)

lemma Backed.stamped {s : Result} (backed : Backed o answers addr r) (same : s.SameAnswer r) :
    Backed o answers addr s := by
  cases backed with
  | answered member first => exact .answered member (same.trans first)
  | unanswered none =>
    rw [same]
    exact .unanswered ⟨none.connected, none.accepted, none.cls⟩

lemma Backed.afterRerun (backed : Backed o answers addr r) (upErr : Failure) :
    Backed o answers addr (afterRerun o upErr r) := by
  unfold Prober.afterRerun
  split
  · rename_i missed
    cases backed with
    | answered member same =>
      -- An answered result is connected, so the rerun did reach the server.
      have connected : r.connected = some true := by rw [same]; exact answerResult_connected _ _
      simp [unreached, connected] at missed
    | unanswered none =>
      exact .unanswered ⟨none.connected, none.accepted, by simp [Class.IsVerdict]⟩
  · exact backed

lemma failure_unanswered {cls : Class} {code : Int} {reply text : Str} (about : ¬ cls.IsVerdict) :
    Unanswered (failure o cls code reply text) := ⟨rfl, rfl, about⟩

lemma budgetFailure_unanswered (err : Failure) : Unanswered (budgetFailure o err) := by
  unfold budgetFailure applyRetryAfter
  split
  · exact failure_unanswered (budgetClass_not_verdict err)
  · exact ⟨rfl, rfl, budgetClass_not_verdict err⟩

end Backing

end EmailVerifier.Prober
