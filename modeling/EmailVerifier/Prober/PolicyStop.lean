import EmailVerifier.Configuration.Validate
import EmailVerifier.Prober.Chronicle

/-! The stop for policy replies.

A session ends after so many policy replies in a row. The number is the request's,
raised to two and clamped, or the configured default. Sessions never stop after a single
reply, unless the configured ceiling for requests is one; what was not asked by then says
so, and what was asked keeps its result.
-/

set_option autoImplicit false

namespace EmailVerifier.Prober
open Text Data Semantics EmailVerifier.Configuration

/-- The options a node fills in from its configuration, as far as the stop depends on them. -/
structure Configured (c : Config) (o : Options) : Prop where
  policyStop : o.policyStop = c.probe.policyStop
  policyStopMax : o.policyStopMax = c.probe.policyStopMax

def threshold (c : Config) (req : Request) : Int :=
  if req.policyStop ≤ 0 then c.probe.policyStop
  else min (max 2 req.policyStop) (max c.probe.policyStop c.probe.policyStopMax)

structure NotAttempted (r : Result) : Prop where
  connected : r.connected = some false
  cls : r.cls = .policy
  err : hasPrefix r.err (lit "not attempted:") = true

instance (r : Result) : Decidable (NotAttempted r) :=
  decidable_of_iff (r.connected = some false ∧ r.cls = .policy ∧ hasPrefix r.err (lit "not attempted:") = true)
    ⟨fun h => ⟨h.1, h.2.1, h.2.2⟩, fun h => ⟨h.connected, h.cls, h.err⟩⟩

lemma stoppedFor_notAttempted {r : Result} {n : Nat} (same : r.SameAnswer (stoppedFor n)) : NotAttempted r := by
  have err : r.err = (stoppedFor n).err := by rw [same]
  have opening : lit "not attempted: " = lit "not attempted:" ++ lit " " := by decide
  refine ⟨same.connected, same.cls, ?_⟩
  rw [err, stoppedFor, opening, List.append_assoc, List.append_assoc]
  exact List.isPrefixOf_iff_prefix.mpr (List.prefix_append _ _)

lemma notAttempted_err {r : Result} (unasked : NotAttempted r) : r.err ≠ [] := by
  intro none
  have said := unasked.err
  rw [none] at said
  cases said

section
variable [Format]

lemma accepted_policyStop {c : Config} (accepted : c.Validate = []) :
    (c.probe.policyStop = 0 ∨ 2 ≤ c.probe.policyStop) ∧
      (c.probe.policyStopMax = 0 ∨ 0 < c.probe.policyStopMax ∧ c.probe.policyStop ≤ c.probe.policyStopMax) := by
  have passes := (validate_nil_iff c).mp accepted
  have probe : ∀ check ∈ probeChecks c, check.bad = false :=
    fun check member => passes check (by simp [checks, member])
  have limits : ∀ check ∈ limitChecks c, check.bad = false :=
    fun check member => passes check (by simp [checks, member])
  simp only [probeChecks, limitChecks, List.forall_mem_cons] at probe limits
  obtain ⟨-, -, -, -, -, -, default, -⟩ := probe
  obtain ⟨ceiling, above, -⟩ := limits
  simp only [Bool.or_eq_false_iff, Bool.and_eq_false_iff, decide_eq_false_iff_not] at default ceiling above
  omega

lemma policyStopFor_threshold {c : Config} {o : Options} (accepted : c.Validate = []) (configured : Configured c o)
    (req : Request) : o.policyStopFor req = threshold c req := by
  obtain ⟨default, ceiling⟩ := accepted_policyStop accepted
  unfold Options.policyStopFor threshold
  rw [configured.policyStop, configured.policyStopMax]
  dsimp only
  split
  · rfl
  · split <;> split <;> split <;> omega

lemma threshold_two {c : Config} (accepted : c.Validate = []) (more : c.probe.policyStopMax ≠ 1) (req : Request)
    (stops : 0 < threshold c req) : 2 ≤ threshold c req := by
  obtain ⟨default, ceiling⟩ := accepted_policyStop accepted
  unfold threshold at *
  split at stops
  · rename_i unset
    rw [if_pos unset]
    omega
  · rename_i set
    rw [if_neg set]
    omega

end

/-- How the stop treats the addresses of a request, as its minutes and its results show. -/
structure PolicyRule [Unicode] (c : Config) (o : Options) (req : Request) (tr : Trace calls) (m : Minutes)
    (results : Results) : Prop where
  applied : o.policyStopFor req = threshold c req
  twice : ∀ s ∈ m.past, s.Stopped o (threshold c req) → 2 ≤ policyRun o s.answers
  silent : ∀ before e after, tr = before ++ e :: after →
    (before.foldl Minutes.next {}).sitting.Stopped o (threshold c req) → e.op.asks = false
  only : ∀ addr r, results.lookup addr = some r → NotAttempted r →
    ∃ s ∈ m.past, s.Stopped o (threshold c req) ∧ addr ∈ s.addrs ∧ addr ∉ s.answers.map Heard.addr
  unasked : ∀ s ∈ m.past, s.Stopped o (threshold c req) → ∀ addr ∈ s.addrs, addr ∉ s.answers.map Heard.addr →
    ∃ r, results.lookup addr = some r ∧ NotAttempted r
  asked : ∀ s ∈ m.past, s.Stopped o (threshold c req) → ∀ h ∈ s.answers,
    ∃ r, results.lookup h.addr = some r ∧ r.SameAnswer (h.result o)

section
variable [Unicode] {o : Options} {stop : Int} {s : Sitting} {addr : Str} {r base : Result}

lemma Cause.attempted (cause : Cause o s base) (same : r.SameAnswer base) : ¬ NotAttempted r := by
  intro unasked
  have cls : base.cls = .policy := same.cls ▸ unasked.cls
  have budget (err : Failure) : budgetClass err ≠ .policy := by
    unfold budgetClass
    split <;> simp
  cases cause with
  | barred which =>
    rcases which with rfl | rfl <;> cases cls
  | @unpaid err =>
    unfold budgetFailure applyRetryAfter at cls
    split at cls <;> exact budget err cls
  | late => exact budget _ cls
  | @unreached err _ =>
    change classifyNetErr err = .policy at cls
    unfold classifyNetErr at cls
    split at cls <;> cases cls
  | turned =>
    refine notAttempted_err unasked ?_
    rw [same]
    rfl

lemma Origin.notAttempted (origin : Origin o stop s addr r) (unasked : NotAttempted r) :
    s.Stopped o stop ∧ (s.addrs.Nodup → addr ∉ s.answers.map Heard.addr) := by
  cases origin with
  | @answered h _ _ same =>
    have connected := same.connected
    rw [unasked.connected, Heard.result, answerResult_connected] at connected
    cases connected
  | stopped full fresh _ => exact ⟨full, fresh⟩
  | lost _ _ cause same => exact absurd unasked (cause.attempted same)

lemma afterRerun_reached {upErr : Failure} (reached : unreached base = false) : afterRerun o upErr base = base := by
  rw [afterRerun, reached]
  rfl

lemma Sourced.notAttempted (sourced : Sourced o stop s addr r) (unasked : NotAttempted r) :
    s.Stopped o stop ∧ (s.addrs.Nodup → addr ∉ s.answers.map Heard.addr) := by
  cases sourced with
  | first _ origin => exact origin.notAttempted unasked
  | @rerun base upErr _ origin same =>
    cases reached : unreached base with
    | true =>
      have cls := same.cls
      rw [unasked.cls, afterRerun, if_pos reached] at cls
      cases cls
    | false =>
      rw [afterRerun_reached reached] at same
      exact (origin.same same).notAttempted unasked

lemma Sourced.stopped (sourced : Sourced o stop s addr r) (full : s.Stopped o stop)
    (unasked : addr ∉ s.answers.map Heard.addr) : NotAttempted r := by
  have origin {base : Result} (origin : Origin o stop s addr base) :
      base.SameAnswer (stoppedFor (policyRun o s.answers)) := by
    cases origin with
    | answered member named _ => exact absurd (named ▸ List.mem_map_of_mem member) unasked
    | stopped _ _ same => exact same
    | lost going _ _ _ => exact absurd full going
  cases sourced with
  | first _ known => exact stoppedFor_notAttempted (origin known)
  | @rerun base upErr _ known same =>
    have reached : unreached base = false := by simp [unreached, (origin known).cls, stoppedFor]
    rw [afterRerun_reached reached] at same
    exact stoppedFor_notAttempted (same.trans (origin known))

lemma Sourced.answer {h : Heard} (sourced : Sourced o stop s h.addr r) (distinct : s.addrs.Nodup)
    (asked : s.answers.map Heard.addr <+: s.addrs) (member : h ∈ s.answers) : r.SameAnswer (h.result o) := by
  have origin {base : Result} (origin : Origin o stop s h.addr base) : base.SameAnswer (h.result o) := by
    cases origin with
    | answered other named same =>
      have once : (s.answers.map Heard.addr).Nodup := distinct.sublist asked.sublist
      rwa [List.inj_on_of_nodup_map once other member named] at same
    | stopped _ fresh _ => exact absurd (List.mem_map_of_mem member) (fresh distinct)
    | lost _ fresh _ _ => exact absurd (List.mem_map_of_mem member) (fresh distinct)
  cases sourced with
  | first _ known => exact origin known
  | @rerun base upErr _ known same =>
    have connected : base.connected = some true := by
      rw [(origin known).connected, Heard.result, answerResult_connected]
    have reached : unreached base = false := by simp [unreached, connected]
    rw [afterRerun_reached reached] at same
    exact same.trans (origin known)

lemma Probe_silent {W : World calls Minutes} {fuel : Nat} {req : Request} {tr before after : Trace calls}
    {e : Event calls} {m : Minutes} {q : Act (Option (Except Str Response))}
    (run : Runs W (Probe fuel o req) {} tr q m) (split : tr = before ++ e :: after)
    (stopped : (before.foldl Minutes.next {}).sitting.Stopped o (o.policyStopFor req)) : e.op.asks = false := by
  obtain ⟨m', path, -⟩ := (Probe_chronicled fuel o req).path run
  rw [split] at path
  obtain ⟨mid, mid', earlier, step, -⟩ := path.split
  have keeps : KeepsMinutes (sittings o (o.policyStopFor req)) := fun _ _ _ step => step.1
  refine step.2 ?_
  rw [keeps.path earlier]
  exact stopped

end

def blocked : Reply where
  code := 550
  text := lit "550 5.7.1 client host blocked"

lemma blocked_formed : blocked.Formed := ⟨lit "550 5.7.1 client host blocked\r\n", [], rfl⟩

def blocking : List Command → Reply
  | [] => greeting
  | sent => if sent.getLast?.any isRcpt then blocked else welcome

lemma blocking_formed (sent : List Command) : (blocking sent).Formed := by
  unfold blocking
  split
  · exact greeting_formed
  · split
    · exact blocked_formed
    · exact welcome_formed

def insistent : Request where
  mxHost := lit "mx"
  domain := lit "d"
  emails := [lit "a@d", lit "b@d", lit "c@d"]
  policyStop := 2

def blockedRun (o : Options) : Trace calls × Option (Except Str Response) × List Command × Minutes :=
  (Probe 1 o insistent).play ((replying blocking).watched Minutes.next) ([], {})

lemma blockedRun_runs (o : Options) :
    Runs anyoneMinuted (Probe 1 o insistent) {} (blockedRun o).1 (.done (blockedRun o).2.1) (blockedRun o).2.2.2 :=
  Prog.play_runs Prod.snd (anyoneMinuted_watched (replying_readable blocking_formed)) (Probe 1 o insistent) ([], {})

def capped : Options where
  policyStopMax := 1

lemma capped_stops : ∃ tr m response r s,
    Runs anyoneMinuted (Probe 1 capped insistent) {} tr (.done (some (.ok response))) m ∧
    s ∈ m.past ∧ s.Stopped capped 1 ∧ policyRun capped s.answers = 1 ∧
    response.results.lookup (lit "b@d") = some r ∧ NotAttempted r := by
  have run := blockedRun_runs capped
  have result : (resultIn (lit "b@d") (blockedRun capped).2.1).any (fun r => decide (NotAttempted r)) = true := by
    decide +kernel
  have once : ((blockedRun capped).2.2.2.past.any fun s =>
      decide (s.Stopped capped 1) && policyRun capped s.answers = 1) = true := by
    decide +kernel
  obtain ⟨r, found, unasked⟩ := (Option.any_eq_true ..).mp result
  obtain ⟨response, answer, looked⟩ := resultIn_some found
  obtain ⟨s, member, stopped⟩ := List.any_eq_true.mp once
  rw [Bool.and_eq_true, decide_eq_true_eq, decide_eq_true_eq] at stopped
  rw [answer] at run
  exact ⟨_, _, response, r, s, run, member, stopped.1, stopped.2, looked, of_decide_eq_true unasked⟩

lemma insistent_distinct : insistent.merged.Nodup := by decide

lemma anyoneMinuted_keeps : KeepsMinutes anyoneMinuted := fun _ _ _ step => step.1

section
variable [Format] {c : Config}

/-- For every accepted configuration that does not cap requests at one, and every request
with pairwise distinct addresses: the rule, in every run. -/
lemma policyRule_holds [Unicode] {o : Options} {fuel : Nat} {req : Request} {tr : Trace calls} {m : Minutes}
    {response : Response} (accepted : c.Validate = []) (more : c.probe.policyStopMax ≠ 1) (configured : Configured c o)
    (distinct : req.merged.Nodup) (run : Runs anyoneMinuted (Probe fuel o req) {} tr (.done (some (.ok response))) m) :
    PolicyRule c o req tr m response.results := by
  have applied := policyStopFor_threshold accepted configured req
  have chronicle := Probe_minutes anyoneMinuted_keeps run
  rw [applied] at chronicle
  have settled : ∀ s ∈ m.past, s.Stopped o (threshold c req) → ∀ addr ∈ s.addrs,
      ∃ r, response.results.lookup addr = some r ∧ Sourced o (threshold c req) s addr r := by
    intro s member full addr inside
    refine (chronicle.kept distinct s member addr inside ?_).2
    rw [chronicle.whole s member full]
    exact List.not_mem_nil
  refine ⟨applied, ?_, ?_, ?_, ?_, ?_⟩
  · rintro s - ⟨positive, reached⟩
    have two := threshold_two accepted more req positive
    omega
  · intro before e after split stopped
    exact Probe_silent run split (applied ▸ stopped)
  · intro addr r found unasked
    rcases chronicle.explained addr r found with ⟨reason, suppressed⟩ | ⟨s, held, ⟨before, after, past, -⟩, sourced⟩
    · have cls := suppressed.cls
      rw [unasked.cls] at cls
      cases cls
    · have member : s ∈ m.past := by
        rw [past]
        exact List.mem_append_right _ List.mem_cons_self
      obtain ⟨full, fresh⟩ := sourced.notAttempted unasked
      exact ⟨s, member, full, held, fresh (chronicle.once distinct s member)⟩
  · intro s member full addr inside unasked
    obtain ⟨r, found, sourced⟩ := settled s member full addr inside
    exact ⟨r, found, sourced.stopped full unasked⟩
  · intro s member full h answered
    have asked := chronicle.asked s member
    obtain ⟨r, found, sourced⟩ := settled s member full h.addr (asked.subset (List.mem_map_of_mem answered))
    exact ⟨r, found, sourced.answer (chronicle.once distinct s member) asked answered⟩

/-- An accepted configuration keeps the rule for every prober built from it, exactly if it
does not cap requests at one. -/
theorem policyRule_iff (accepted : c.Validate = []) :
    (∀ [Unicode] (o : Options) (fuel : Nat) (req : Request) (tr : Trace calls) (m : Minutes) (response : Response),
      Configured c o → req.merged.Nodup →
      Runs anyoneMinuted (Probe fuel o req) {} tr (.done (some (.ok response))) m →
      PolicyRule c o req tr m response.results) ↔ c.probe.policyStopMax ≠ 1 := by
  constructor
  · intro rule one
    obtain ⟨default, ceiling⟩ := accepted_policyStop accepted
    have none : c.probe.policyStop = 0 := by omega
    obtain ⟨tr, m, response, r, s, run, member, stopped, single, -⟩ := capped_stops
    have kept := rule capped 1 insistent tr m response ⟨none.symm, one.symm⟩ insistent_distinct run
    have cap : threshold c insistent = 1 := by
      rw [threshold, one, none]
      rfl
    have twice := kept.twice s member (cap.symm ▸ stopped)
    omega
  · intro more _ o fuel req tr m response configured distinct run
    exact policyRule_holds accepted more configured distinct run

end

def nodeOptions : Options where
  policyStop := 5
  policyStopMax := 10

/-- The defaults let a request ask to be stopped after two replies: the third address is
not attempted. -/
theorem nodeConfig_stops : ∃ tr m response r,
    Runs anyoneMinuted (Probe 1 nodeOptions insistent) {} tr (.done (some (.ok response))) m ∧
    PolicyRule nodeConfig nodeOptions insistent tr m response.results ∧
    response.results.lookup (lit "c@d") = some r ∧ NotAttempted r := by
  have run := blockedRun_runs nodeOptions
  have result : (resultIn (lit "c@d") (blockedRun nodeOptions).2.1).any (fun r => decide (NotAttempted r)) = true := by
    decide +kernel
  obtain ⟨r, found, unasked⟩ := (Option.any_eq_true ..).mp result
  obtain ⟨response, answer, looked⟩ := resultIn_some found
  rw [answer] at run
  have rule := (policyRule_iff nodeConfig_accepted).mpr (by decide) nodeOptions 1 insistent _ _ response ⟨rfl, rfl⟩
    insistent_distinct run
  exact ⟨_, _, response, r, run, rule, looked, of_decide_eq_true unasked⟩

def cappedConfig : Config :=
  { nodeConfig with probe := { nodeConfig.probe with policyStop := 0, policyStopMax := 1 } }

/-- An accepted configuration under which one policy reply ends a session. -/
theorem cappedConfig_stops_at_one : cappedConfig.Validate = [] ∧ Configured cappedConfig capped ∧
    threshold cappedConfig insistent = 1 ∧ ∃ tr m response r s,
    Runs anyoneMinuted (Probe 1 capped insistent) {} tr (.done (some (.ok response))) m ∧
    s ∈ m.past ∧ s.Stopped capped (threshold cappedConfig insistent) ∧ policyRun capped s.answers = 1 ∧
    response.results.lookup (lit "b@d") = some r ∧ NotAttempted r :=
  ⟨by decide +kernel, ⟨rfl, rfl⟩, rfl, capped_stops⟩

end EmailVerifier.Prober
