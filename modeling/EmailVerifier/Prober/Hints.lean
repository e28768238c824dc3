import EmailVerifier.Prober.Chronicle

/-! When a result says to come back.

Callers schedule on the hint of a result. A class that calls for another attempt carries
one between a minute and six hours, and every other class none, whichever exit of the
session made the result; only the exit for a token refused between two recipients leaves
the hint out.
-/

set_option autoImplicit false

namespace EmailVerifier.Prober
open Text Data Semantics

def Class.comesBack : Class → Bool
  | .deferred | .throttled | .noBudget | .paused | .tlsFailed => true
  | _ => false

def Hinted (r : Result) : Prop :=
  if r.cls.comesBack then 60 ≤ r.retryAfterSeconds ∧ r.retryAfterSeconds ≤ 21600 else r.retryAfterSeconds = 0

instance (r : Result) : Decidable (Hinted r) :=
  inferInstanceAs (Decidable (if r.cls.comesBack then 60 ≤ r.retryAfterSeconds ∧ r.retryAfterSeconds ≤ 21600
    else r.retryAfterSeconds = 0))

/-- A token for the next recipient is refused, with an address of the session answered
already. -/
def Minutes.refusesLate (m : Minutes) : Event calls → Bool
  | ⟨.acquire _ _, .error _⟩ => m.sitting.answers ≠ [] && !m.drawn
  | _ => false

def prompt : World calls Minutes := fun m e m' =>
  m' = m.next e ∧ Readable e ∧ m.refusesLate e = false

lemma clampHint_bounds (d : Nat) : 60 ≤ clampHint d / second ∧ clampHint d / second ≤ 21600 := by
  unfold clampHint minRetryHint maxRetryHint second
  omega

lemma Minutes.next_late {m : Minutes} {e : Event calls} (late : (m.next e).sitting.late = true) :
    m.sitting.late = true ∨ m.refusesLate e = true := by
  obtain ⟨op, a⟩ := e
  cases op with
  | enter groups grouped => cases late
  | leave rest =>
    change (m.leaves rest).sitting.late = true at late
    unfold Minutes.leaves at late
    split at late <;> exact .inl late
  | acquire host domain =>
    cases a with
    | error err => exact (Bool.or_eq_true_iff ..).mp late
    | ok _ => exact .inl late
  | readReply conn =>
    cases a with
    | error err => exact .inl late
    | ok reply =>
      obtain ⟨answers, same⟩ := m.hear_eq reply
      change (m.hear reply).sitting.late = true at late
      rw [same] at late
      exact .inl late
  | write conn command => cases a <;> exact .inl late
  | handshake conn name timeout => cases a <;> exact .inl late
  | randRead => cases a <;> exact .inl late
  | _ => exact .inl late

lemma prompt_keeps : KeepsMinutes prompt := fun _ _ _ step => step.1

lemma prompt_entries {m : Minutes} {tr : Trace calls} (path : Path prompt {} tr m) : ∀ s ∈ m.past, s.late = false := by
  refine prompt_keeps.entries (fun s => s.late = false) rfl (fun _ _ early => early) ?_ path
  rintro m e _ early ⟨rfl, -, paid⟩
  refine Bool.eq_false_iff.mpr fun late => ?_
  rcases Minutes.next_late late with before | now
  · exact absurd before (Bool.eq_false_iff.mp early)
  · exact absurd now (Bool.eq_false_iff.mp paid)

lemma Hinted.same {r base : Result} (hinted : Hinted base) (same : r.SameAnswer base) : Hinted r := by
  unfold Hinted at *
  have seconds : r.retryAfterSeconds = base.retryAfterSeconds := by rw [same]
  rw [same.cls, seconds]
  exact hinted

section
variable [Unicode] {o : Options} {r base : Result} {stop : Int} {s : Sitting} {addr : Str}

lemma retryHint_hinted {text : Str} {fallback : Nat} (same : r.retryAfterSeconds = retryHint r.cls text fallback) :
    Hinted r := by
  unfold Hinted
  rw [same]
  have bounds := clampHint_bounds ((parseHint text).getD fallback)
  cases r.cls <;> first | exact bounds | exact rfl

lemma answerResult_hinted (reply : Reply) (relay : Bool) : Hinted (answerResult o reply relay) := by
  cases relay with
  | true => exact rfl
  | false => exact retryHint_hinted rfl

lemma budgetFailure_hinted (err : Failure) : Hinted (budgetFailure o err) := by
  have bounds : 60 ≤ retryAfterFor err [] o.deferralRetryOr ∧ retryAfterFor err [] o.deferralRetryOr ≤ 21600 := by
    unfold retryAfterFor
    split <;> exact clampHint_bounds _
  have some : retryAfterFor err [] o.deferralRetryOr ≠ 0 := by omega
  rw [budgetFailure, applyRetryAfter, if_neg some]
  unfold Hinted failure budgetClass
  split <;> split <;> first | exact bounds | contradiction

lemma Cause.hinted (cause : Cause o s base) (early : s.late = false) : Hinted base := by
  cases cause with
  | barred _ => exact retryHint_hinted rfl
  | unpaid => exact budgetFailure_hinted _
  | late late => exact absurd late (Bool.eq_false_iff.mp early)
  | @unreached err _ =>
    unfold classifyNetErr
    split <;> exact rfl
  | turned => exact retryHint_hinted rfl

lemma Origin.hinted (origin : Origin o stop s addr r) (early : s.late = false) : Hinted r := by
  cases origin with
  | answered _ _ same => exact (answerResult_hinted _ _).same same
  | stopped _ _ same => exact Hinted.same (show Hinted (stoppedFor _) from rfl) same
  | lost _ _ cause same => exact (cause.hinted early).same same

lemma afterRerun_hinted {upErr : Failure} (hinted : Hinted base) : Hinted (afterRerun o upErr base) := by
  unfold afterRerun
  split
  · exact retryHint_hinted rfl
  · exact hinted

lemma Sourced.hinted (sourced : Sourced o stop s addr r) (early : s.late = false) : Hinted r := by
  cases sourced with
  | first _ origin => exact origin.hinted early
  | rerun _ origin same => exact (afterRerun_hinted (origin.hinted early)).same same

/-- In every run in which no token is refused between two recipients, every result
carries the hint of its class. -/
theorem results_hinted {fuel : Nat} {req : Request} {tr : Trace calls} {m : Minutes} {response : Response}
    (run : Runs prompt (Probe fuel o req) {} tr (.done (some (.ok response))) m)
    (found : response.results.lookup addr = some r) : Hinted r := by
  have chronicle := Probe_minutes prompt_keeps run
  have early := prompt_entries run.path
  rcases chronicle.explained addr r found with ⟨reason, suppressed⟩ | ⟨s, -, ⟨before, after, past, -⟩, sourced⟩
  · exact Hinted.same (show Hinted (suppressedResult reason) from rfl) suppressed
  · refine sourced.hinted (early s ?_)
    rw [past]
    exact List.mem_append_right _ List.mem_cons_self

end

def twoAddresses : Request where
  mxHost := lit "mx"
  domain := lit "d"
  emails := [lit "a@d", lit "b@d"]

def greylisted : Reply where
  code := 451
  text := lit "451 4.7.1 greylisted, try again in 5 minutes"

lemma greylisted_formed : greylisted.Formed :=
  ⟨lit "451 4.7.1 greylisted, try again in 5 minutes\r\n", [], by decide +kernel⟩

def greylisting : List Command → Reply
  | [] => greeting
  | sent => if sent.getLast?.any isRcpt then greylisted else welcome

lemma greylisting_formed (sent : List Command) : (greylisting sent).Formed := by
  unfold greylisting
  split
  · exact greeting_formed
  · split
    · exact greylisted_formed
    · exact welcome_formed

abbrev minuted (replies : List Command → Reply) : Player calls (List Command × Minutes) :=
  (replying replies).watched Minutes.next

lemma minuted_prompt {replies : List Command → Reply} (formed : ∀ sent, (replies sent).Formed)
    (s : List Command × Minutes) (op : Op) : prompt s.2 ⟨op, (minuted replies s op).1⟩ (minuted replies s op).2.2 := by
  refine ⟨rfl, replying_readable formed s.1 op, ?_⟩
  cases op <;> rfl

/-- A greylisted address is to be asked again after the five minutes the server names. -/
theorem greylisted_hinted : ∃ tr m response r,
    Runs prompt (Probe 1 { pacer := .pacing } twoAddresses) {} tr (.done (some (.ok response))) m ∧
    response.results.lookup (lit "b@d") = some r ∧ r.retryAfterSeconds = 300 ∧ Hinted r := by
  have run := Prog.play_runs Prod.snd (minuted_prompt greylisting_formed)
    (Probe 1 { pacer := .pacing } twoAddresses) ([], {})
  have hinted : (resultIn (lit "b@d") ((Probe 1 { pacer := .pacing } twoAddresses).play
      (minuted greylisting) ([], {})).2.1).map Result.retryAfterSeconds = some 300 := by
    decide +kernel
  obtain ⟨r, found, seconds⟩ := Option.map_eq_some_iff.mp hinted
  obtain ⟨response, answer, looked⟩ := resultIn_some found
  rw [answer] at run
  exact ⟨_, _, response, r, run, looked, seconds, results_hinted run looked⟩

def rationing (tokens : Nat) : Player calls (Nat × Bool) := fun s op => match op with
  | .acquire _ _ => (if s.1 < tokens then .ok () else .error broken, (s.1 + 1, s.2))
  | op => ((granting s.2 op).1, (s.1, (granting s.2 op).2))

lemma rationing_readable (tokens : Nat) (s : Nat × Bool) (op : Op) : Readable ⟨op, (rationing tokens s op).1⟩ := by
  cases op with
  | readReply conn => exact granting_readable s.2 (.readReply conn)
  | _ => trivial

/-- The second address finds the bucket empty, and is not told when to come back. -/
theorem late_refusal_unhinted : ∃ tr response r,
    Runs anyone (Probe 1 { pacer := .pacing } twoAddresses) () tr (.done (some (.ok response))) () ∧
    response.results.lookup (lit "b@d") = some r ∧ r.cls = .noBudget ∧ r.retryAfterSeconds = 0 ∧ ¬ Hinted r := by
  have run := play_anyone (rationing_readable 1) (Probe 1 { pacer := .pacing } twoAddresses) (0, true)
  have refused : (resultIn (lit "b@d") ((Probe 1 { pacer := .pacing } twoAddresses).play (rationing 1) (0, true)).2.1).any
      (fun r => r.cls = .noBudget && r.retryAfterSeconds = 0 && !decide (Hinted r)) = true := by
    decide +kernel
  obtain ⟨r, found, refused⟩ := (Option.any_eq_true ..).mp refused
  simp only [Bool.and_eq_true, decide_eq_true_eq, Bool.not_eq_true', decide_eq_false_iff_not] at refused
  obtain ⟨⟨unpaid, none⟩, broken⟩ := refused
  obtain ⟨response, answer, looked⟩ := resultIn_some found
  rw [answer] at run
  exact ⟨_, response, r, run, looked, unpaid, none, broken⟩

end EmailVerifier.Prober
