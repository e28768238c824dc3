import EmailVerifier.Prober.Chronicle

/-! What `tls_failed` says.

A session whose upgrade fails is held once more in plaintext, and a result the rerun
could not get either becomes `tls_failed`. Where the rerun, once the server has spoken,
gets through the exchanges it depends on, that class means that the server said nothing
at all in it.
-/

set_option autoImplicit false

namespace EmailVerifier.Prober
open Text Data Semantics

/-- An exchange the session depends on fails: neither a bogus question nor the farewell. -/
def Minutes.breaksOff (m : Minutes) : Event calls → Bool
  | ⟨.write _ command, .error _⟩ => (m.write command).depends
  | ⟨.readReply _, .error _⟩ => m.depends
  | _ => false

def steady : World calls Minutes := fun m e m' =>
  m' = m.next e ∧ Readable e ∧ (m.sitting.rerun = true → m.sitting.replied = true → m.breaksOff e = false)

lemma steady_keeps : KeepsMinutes steady := fun _ _ _ step => step.1

lemma Minutes.next_severed {m : Minutes} {e : Event calls} (severed : (m.next e).sitting.severed = true) :
    (m.next e).sitting.rerun = m.sitting.rerun ∧
      (m.sitting.severed = true ∨ m.sitting.replied = true ∧ m.breaksOff e = true) := by
  have failed {m : Minutes} (severed : m.fails.sitting.severed = true) :
      m.sitting.severed = true ∨ m.sitting.replied = true ∧ m.depends = true := by
    simpa [Minutes.fails] using severed
  obtain ⟨op, a⟩ := e
  cases op with
  | enter groups grouped => cases severed
  | leave rest =>
    change (m.leaves rest).sitting.severed = true at severed
    change (m.leaves rest).sitting.rerun = _ ∧ _
    unfold Minutes.leaves at *
    split at severed <;> split <;> exact ⟨rfl, .inl severed⟩
  | acquire host domain => cases a <;> exact ⟨rfl, .inl severed⟩
  | readReply conn =>
    cases a with
    | error err => exact ⟨rfl, failed severed⟩
    | ok reply =>
      obtain ⟨answers, same⟩ := m.hear_eq reply
      change (m.hear reply).sitting.severed = true at severed
      change (m.hear reply).sitting.rerun = _ ∧ _
      rw [same] at severed ⊢
      exact ⟨rfl, .inl severed⟩
  | write conn command =>
    cases a with
    | error err => exact ⟨rfl, failed (m := m.write command) severed⟩
    | ok _ => exact ⟨rfl, .inl severed⟩
  | handshake conn name timeout => cases a <;> exact ⟨rfl, .inl severed⟩
  | randRead => cases a <;> exact ⟨rfl, .inl severed⟩
  | _ => exact ⟨rfl, .inl severed⟩

lemma steady_entries {m : Minutes} {tr : Trace calls} (path : Path steady {} tr m) :
    ∀ s ∈ m.past, s.rerun = true → s.severed = false := by
  refine steady_keeps.entries (fun s => s.rerun = true → s.severed = false) (fun _ => rfl) (fun _ _ whole => whole) ?_ path
  rintro m e _ whole ⟨rfl, -, held⟩ rerun
  refine Bool.eq_false_iff.mpr fun severed => ?_
  obtain ⟨same, before | ⟨replied, broken⟩⟩ := Minutes.next_severed severed
  · exact absurd before (Bool.eq_false_iff.mp (whole (same ▸ rerun)))
  · exact absurd broken (Bool.eq_false_iff.mp (held (same ▸ rerun) replied))

def Class.spoken : Class → Bool
  | .valid | .invalid | .deferred | .throttled | .badSequence | .policy | .unknown => true
  | _ => false

section
variable [Unicode] {o : Options} {r base : Result} {stop : Int} {s : Sitting} {addr : Str}

lemma classifyAs_spoken (code : Int) (text : Str) (id : Identity) : (classifyAs code text id).spoken = true := by
  have among : classifyAs code text id ∈
      [Class.valid, .invalid, .policy, .deferred, .throttled, .badSequence, .unknown] := by
    have permanent := List.mem_append_left [Class.deferred, .throttled, .badSequence, .unknown]
      (classifyPermanent_mem (toLower text) id)
    refine mem_ite ?_ <| mem_ite ?_ <| mem_ite ?_ <| mem_ite ?_ <| mem_ite ?_ <| mem_ite ?_ <|
      mem_ite (mem_ite ?_ ?_) <| mem_ite ?_ permanent
    all_goals decide
  exact (by decide : ∀ c ∈ [Class.valid, .invalid, .policy, .deferred, .throttled, .badSequence, .unknown],
    c.spoken = true) _ among

lemma beforeRCPT_spoken (reply : Reply) : (beforeRCPT o reply).spoken = true := by
  unfold beforeRCPT
  dsimp only
  split
  · exact classifyAs_spoken _ _ _
  · split <;> rfl

/-- The classes of what a session gives up: a reply's, one of our own, or the network's,
which it has only where nothing was read or an exchange failed afterwards. -/
lemma Cause.cls (cause : Cause o s base) :
    base.cls.spoken = true ∨ base.cls ∈ [Class.guarded, .ipBurned, .noBudget, .paused] ∨
      base.cls ∈ [Class.timeout, .connError] ∧ (s.replied = false ∨ s.severed = true) := by
  have budget (err : Failure) : budgetClass err ∈ [Class.guarded, .ipBurned, .noBudget, .paused] := by
    unfold budgetClass
    split <;> simp
  cases cause with
  | barred which =>
    refine .inr (.inl ?_)
    rcases which with rfl | rfl <;> simp [failure]
  | @unpaid err =>
    refine .inr (.inl ?_)
    unfold budgetFailure applyRetryAfter
    split <;> exact budget err
  | late => exact .inr (.inl (budget _))
  | @unreached err why =>
    refine .inr (.inr ⟨?_, why⟩)
    change classifyNetErr err ∈ _
    unfold classifyNetErr
    split <;> simp
  | turned => exact .inl (beforeRCPT_spoken _)

lemma Heard.result_spoken (h : Heard) : (h.result o).cls.spoken = true := by
  cases relay : h.relay with
  | true => rw [Heard.result_relay relay]; rfl
  | false =>
    rw [Heard.result_cls relay]
    exact classifyAs_spoken _ _ _

lemma Origin.not_tlsFailed (origin : Origin o stop s addr r) : r.cls ≠ .tlsFailed := by
  intro failed
  cases origin with
  | @answered h _ _ same =>
    have spoken := h.result_spoken (o := o)
    rw [← same.cls, failed] at spoken
    cases spoken
  | stopped _ _ same =>
    rw [same.cls] at failed
    cases failed
  | lost _ _ cause same =>
    have classes := cause.cls
    rw [← same.cls, failed] at classes
    simp [Class.spoken] at classes

lemma Origin.unreached (origin : Origin o stop s addr r) (none : unreached r = true) :
    s.replied = false ∨ s.severed = true := by
  simp only [Prober.unreached, Bool.and_eq_true, Bool.or_eq_true, decide_eq_true_eq] at none
  obtain ⟨apart, silent⟩ := none
  cases origin with
  | @answered h _ _ same =>
    rw [same.connected, Heard.result, answerResult_connected] at apart
    exact absurd rfl apart
  | stopped _ _ same =>
    rw [same.cls] at silent
    simp [stoppedFor] at silent
  | @lost base _ _ cause same =>
    rw [same.cls] at silent
    rcases cause.cls with spoken | own | ⟨-, why⟩
    · rcases silent with (which | which) | which <;> rw [which] at spoken <;> cases spoken
    · rcases silent with (which | which) | which <;> rw [which] at own <;> simp at own
    · exact why

/-- In every run in which no rerun whose server has spoken is broken off, a result is
`tls_failed` only if the upgrade of its session failed and the rerun read no reply. -/
theorem tlsFailed_unreached {fuel : Nat} {req : Request} {tr : Trace calls} {m : Minutes} {response : Response}
    (run : Runs steady (Probe fuel o req) {} tr (.done (some (.ok response))) m)
    (found : response.results.lookup addr = some r) (failed : r.cls = .tlsFailed) :
    ∃ s, ComesFrom o (o.policyStopFor req) m.past s addr r ∧ s.rerun = true ∧ s.replied = false := by
  have chronicle := Probe_minutes steady_keeps run
  rcases chronicle.explained addr r found with ⟨reason, suppressed⟩ | ⟨s, from_⟩
  · rw [suppressed.cls] at failed
    cases failed
  · refine ⟨s, from_, ?_⟩
    have member : s ∈ m.past := by
      obtain ⟨before, after, past, -⟩ := from_.last
      rw [past]
      exact List.mem_append_right _ List.mem_cons_self
    cases from_.sourced with
    | first _ origin => exact absurd failed origin.not_tlsFailed
    | @rerun base upErr second origin same =>
      refine ⟨second, ?_⟩
      rw [same.cls] at failed
      unfold afterRerun at failed
      split at failed
      · rename_i none
        rcases origin.unreached none with silent | severed
        · exact silent
        · exact absurd severed (Bool.eq_false_iff.mp (steady_entries run.path s member second))
      · exact absurd failed origin.not_tlsFailed

end

def hailing : List Command → Reply
  | [] => greeting
  | sent => match sent.getLast? with
    | some (.ehlo _) => { code := 250, text := lit "250-mx\n250 STARTTLS" }
    | some .startTLS => greeting
    | _ => welcome

lemma hailing_formed (sent : List Command) : (hailing sent).Formed := by
  unfold hailing
  split
  · exact greeting_formed
  · split
    · exact ⟨lit "250-mx\r\n250 STARTTLS\r\n", [], rfl⟩
    · exact greeting_formed
    · exact welcome_formed

/-- No handshake succeeds, and only the first few dials do. The state holds the commands
of the session and the number of dials. -/
def unsafely (dials : Nat) : Player calls (List Command × Nat) := fun s op => match op with
  | .dialContext _ _ _ => (if s.2 < dials then .ok 0 else .error broken, ([], s.2 + 1))
  | .handshake _ _ _ => (.error broken, s)
  | op => ((replying hailing s.1 op).1, ((replying hailing s.1 op).2, s.2))

lemma unsafely_readable (dials : Nat) (s : List Command × Nat) (op : Op) : Readable ⟨op, (unsafely dials s op).1⟩ := by
  cases op with
  | readReply conn => exact hailing_formed s.1
  | _ => trivial

lemma unsafely_steady (dials : Nat) (s : (List Command × Nat) × Minutes) (op : Op) :
    steady s.2 ⟨op, ((unsafely dials).watched Minutes.next s op).1⟩ ((unsafely dials).watched Minutes.next s op).2.2 := by
  refine ⟨rfl, unsafely_readable dials s.1 op, fun _ _ => ?_⟩
  cases op <;> rfl

/-- A server that fails the handshake and is not to be reached again. -/
theorem unreachable_tlsFailed : ∃ tr m response r s,
    Runs steady (Probe 1 {} oneAddress) {} tr (.done (some (.ok response))) m ∧
    response.results.lookup (lit "a@b") = some r ∧ r.cls = .tlsFailed ∧
    ComesFrom {} (({} : Options).policyStopFor oneAddress) m.past s (lit "a@b") r ∧ s.rerun = true ∧
    s.replied = false := by
  have run := Prog.play_runs Prod.snd (unsafely_steady 1) (Probe 1 {} oneAddress) (([], 0), {})
  have cls : (resultIn (lit "a@b") ((Probe 1 {} oneAddress).play ((unsafely 1).watched Minutes.next)
      (([], 0), {})).2.1).map Result.cls = some .tlsFailed := by
    decide +kernel
  obtain ⟨r, found, failed⟩ := Option.map_eq_some_iff.mp cls
  obtain ⟨response, answer, looked⟩ := resultIn_some found
  rw [answer] at run
  obtain ⟨s, from_, rerun, silent⟩ := tlsFailed_unreached run looked failed
  exact ⟨_, _, response, r, s, run, looked, failed, from_, rerun, silent⟩

def hangingUp : Player calls (List Command × Nat) := fun s op => match op with
  | .readReply conn => if s.1.getLast?.any isMailFrom then (.error broken, s) else unsafely 2 s (.readReply conn)
  | op => unsafely 2 s op

lemma hangingUp_readable (s : List Command × Nat) (op : Op) : Readable ⟨op, (hangingUp s op).1⟩ := by
  cases op with
  | readReply conn =>
    simp only [hangingUp]
    split
    · trivial
    · exact unsafely_readable 2 s (.readReply conn)
  | _ => trivial

/-- A rerun that read the banner and the reply to EHLO ends in `tls_failed` all the same. -/
theorem answered_rerun_tlsFailed : ∃ tr m response r s,
    Runs anyoneMinuted (Probe 1 {} oneAddress) {} tr (.done (some (.ok response))) m ∧
    response.results.lookup (lit "a@b") = some r ∧ r.cls = .tlsFailed ∧
    m.past = [s] ∧ s.rerun = true ∧ s.replied = true := by
  have run := Prog.play_runs Prod.snd (anyoneMinuted_watched hangingUp_readable) (Probe 1 {} oneAddress) (([], 0), {})
  have cls : (resultIn (lit "a@b") ((Probe 1 {} oneAddress).play (hangingUp.watched Minutes.next)
      (([], 0), {})).2.1).map Result.cls = some .tlsFailed := by
    decide +kernel
  have past : ((Probe 1 {} oneAddress).play (hangingUp.watched Minutes.next) (([], 0), {})).2.2.2.past =
      [{ addrs := [lit "a@b"], rerun := true, replied := true, severed := true }] := by
    decide +kernel
  obtain ⟨r, found, failed⟩ := Option.map_eq_some_iff.mp cls
  obtain ⟨response, answer, looked⟩ := resultIn_some found
  rw [answer] at run
  exact ⟨_, _, response, r, _, run, looked, failed, past, rfl, rfl⟩

end EmailVerifier.Prober
