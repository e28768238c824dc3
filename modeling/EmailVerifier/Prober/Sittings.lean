import EmailVerifier.Prober.Minutes

/-! Every session explains its results.

The rules follow the pieces of `session`, each with the rest of the program behind it.
Between two questions the minutes hold the answers given so far and the session has not
been stopped; where it ends, every address is answered, given up for a reason the minutes
show, or handed back.
-/

set_option autoImplicit false

namespace EmailVerifier.Prober
open Text Data Semantics

structure SameSitting (start m : Minutes) : Prop where
  addrs : m.sitting.addrs = start.sitting.addrs
  rerun : m.sitting.rerun = start.sitting.rerun
  past : m.past = start.past
  grouped : m.grouped = start.grouped

structure Unmoved (m m' : Minutes) : Prop where
  same : SameSitting m m'
  answers : m'.sitting.answers = m.sitting.answers
  mails : m'.mails = m.mails
  upset : m'.upset = m.upset
  drawn : m'.drawn = m.drawn
  closing : m'.closing = m.closing

variable {start m m' : Minutes}

lemma SameSitting.rfl : SameSitting m m := ⟨Eq.refl _, Eq.refl _, Eq.refl _, Eq.refl _⟩

lemma SameSitting.trans (first : SameSitting start m) (second : SameSitting m m') : SameSitting start m' :=
  ⟨second.addrs.trans first.addrs, second.rerun.trans first.rerun, second.past.trans first.past,
    second.grouped.trans first.grouped⟩

lemma Unmoved.rfl : Unmoved m m := ⟨.rfl, Eq.refl _, Eq.refl _, Eq.refl _, Eq.refl _, Eq.refl _⟩

lemma Unmoved.trans {mid : Minutes} (first : Unmoved m mid) (second : Unmoved mid m') : Unmoved m m' :=
  ⟨first.same.trans second.same, second.answers.trans first.answers, second.mails.trans first.mails,
    second.upset.trans first.upset, second.drawn.trans first.drawn, second.closing.trans first.closing⟩

lemma SameSitting.further (same : SameSitting start m) : m.further = (start.grouped && decide (1 < m.mails)) := by
  rw [Dialogue.further, same.grouped]

lemma Minutes.hear_unmoved {reply : Reply} (other : m.due.any isRcpt = false) : Unmoved m (m.hear reply) := by
  unfold Minutes.hear
  split
  · rename_i addr due
    rw [due] at other
    cases other
  · exact ⟨⟨rfl, rfl, rfl, rfl⟩, rfl, rfl, rfl, rfl, rfl⟩

/-- The minutes once a reply to a real recipient is taken as its answer. -/
def Minutes.answered (m : Minutes) (h : Heard) : Minutes :=
  { m.write (.rcpt h.addr) with
    sitting := { m.sitting with replied := true, answers := m.sitting.answers ++ [h] } }

lemma Minutes.hear_rcpt {h : Heard} (made : h.further = m.further) :
    (m.write (.rcpt h.addr)).hear h.reply =
      Minutes.take { m.write (.rcpt h.addr) with sitting := { m.sitting with replied := true } } h := by
  cases h
  cases made
  rfl

lemma Minutes.hear_answer {h : Heard} (made : h.further = m.further) (kept : h.limit = false) :
    (m.write (.rcpt h.addr)).hear h.reply = m.answered h := by
  rw [Minutes.hear_rcpt made, Minutes.take, kept]
  rfl

lemma Minutes.hear_limit {h : Heard} (made : h.further = m.further) (limit : h.limit = true) :
    (m.write (.rcpt h.addr)).hear h.reply =
      { m.write (.rcpt h.addr) with sitting := { m.sitting with replied := true } } := by
  rw [Minutes.hear_rcpt made, Minutes.take, limit]
  rfl

lemma undrawn_eq (undrawn : m.drawn = false) : { m with drawn := false } = m := by
  rw [← undrawn]

lemma Minutes.next_quiet {op : Op} {a : op.Answer} (quiet : Quiet op) : m.next ⟨op, a⟩ = m := by
  cases op <;> first | rfl | cases quiet

lemma Minutes.leaves_even {rest : List Str} (even : m.upset = false) :
    m.leaves rest = { m with past := m.past ++ [{ m.sitting with rest := rest }] } :=
  if_neg (Bool.eq_false_iff.mp even)

lemma Minutes.leaves_upset {rest : List Str} (upset : m.upset = true) : m.leaves rest = m := if_pos upset

lemma Quiet.unasking {op : Op} (quiet : Quiet op) : op.asks = false := by
  cases op <;> first | rfl | cases quiet

section
variable [Unicode]

/-- Between two questions, with the addresses `left` ahead. -/
structure Seated (o : Options) (stop : Int) (start m : Minutes) (p : Progress) (left : List Str) : Prop where
  same : SameSitting start m
  out : p.out = booked o m.sitting.answers
  asked : p.asked = m.sitting.answers.length
  run : p.policyRun = policyRun o m.sitting.answers
  whole : m.sitting.addrs = m.sitting.answers.map Heard.addr ++ left
  judged : Judged p.verdicts
  going : ¬ m.sitting.Stopped o stop
  even : m.upset = false
  undrawn : m.drawn = false
  staying : m.closing = false

structure Over (o : Options) (stop : Int) (start m : Minutes) (exit : Exit) : Prop where
  same : SameSitting start m
  even : m.upset = false
  judged : Judged exit.verdicts
  outcome : Outcome o stop { m.sitting with rest := exit.rest }
    (Origin o stop { m.sitting with rest := exit.rest }) exit.results

variable {o : Options} {req : Request} {stop : Int} {A B : Type} {conn : Conn} {post : B → Minutes → Prop}
  {left later addrs : List Str} {p : Progress} {addr : Str} {r : Result} {exit : Exit}
  {groups : List SessionGroup}

lemma Seated.moved (seated : Seated o stop start m p left) (calm : Unmoved m m') : Seated o stop start m' p left where
  same := seated.same.trans calm.same
  out := calm.answers ▸ seated.out
  asked := calm.answers ▸ seated.asked
  run := calm.answers ▸ seated.run
  whole := by rw [calm.same.addrs, calm.answers, seated.whole]
  judged := seated.judged
  going := by
    rw [Sitting.Stopped, calm.answers]
    exact seated.going
  even := calm.upset.trans seated.even
  undrawn := calm.drawn.trans seated.undrawn
  staying := calm.closing.trans seated.staying

/-! ## Giving up and handing back -/

lemma Over.giveUp (same : SameSitting start m) (even : m.upset = false) (out : p.out = booked o m.sitting.answers)
    (whole : m.sitting.addrs = m.sitting.answers.map Heard.addr ++ left) (judged : Judged p.verdicts)
    (going : ¬ m.sitting.Stopped o stop) (cause : Cause o { m.sitting with rest := [] } r) : Over o stop start m (p.unattempted left r) := by
  refine ⟨same, even, judged, ?_⟩
  rw [Progress.unattempted, out]
  exact .giveUp whole rfl cause.unstamped fun addr fresh => .lost going fresh cause .rfl

lemma Seated.gaveUp (seated : Seated o stop start m p left) (calm : Unmoved m m')
    (cause : Cause o { m'.sitting with rest := [] } r) : Over o stop start m' (p.unattempted left r) :=
  have moved := seated.moved calm
  .giveUp moved.same moved.even moved.out moved.whole moved.judged moved.going cause

lemma Over.handBack (same : SameSitting start m) (even : m.upset = false) (out : p.out = booked o m.sitting.answers)
    (whole : m.sitting.addrs = m.sitting.answers.map Heard.addr ++ left) (judged : Judged p.verdicts)
    (going : ¬ m.sitting.Stopped o stop) : Over o stop start m { results := p.out, verdicts := p.verdicts, rest := left } := by
  refine ⟨same, even, judged, ?_⟩
  dsimp only
  rw [out]
  exact .handBack whole going

lemma Over.moved (passed : Over o stop start m exit) (sitting : m'.sitting = m.sitting) (past : m'.past = m.past)
    (grouped : m'.grouped = m.grouped) (upset : m'.upset = m.upset) : Over o stop start m' exit where
  same := ⟨sitting ▸ passed.same.addrs, sitting ▸ passed.same.rerun, past.trans passed.same.past,
    grouped.trans passed.same.grouped⟩
  even := upset.trans passed.even
  judged := passed.judged
  outcome := sitting ▸ passed.outcome

/-- Once the session is over, its exit is handed on. -/
abbrev HandsOn {C : Type} (o : Options) (stop : Int) (start : Minutes) (post : B → Minutes → Prop)
    (f : Except Exit C → Act B) : Prop :=
  ∀ m' exit, Over o stop start m' exit → (f (.error exit)).Follows (sittings o stop) post m'

/-! ## Single calls -/

lemma quiet_minuted {q : Act A} {f : A → Act B} (quiet : q.Only Quiet)
    (rest : ∀ a, (f a).Follows (sittings o stop) post m) : (q >>= f).Follows (sittings o stop) post m :=
  .bind (quiet.follows (fun _ _ member => ⟨(Minutes.next_quiet member).symm, fun _ => member.unasking⟩) rest)

lemma call_minuted {op : Op} {f : op.Answer → Act B} (mute : op.asks = false)
    (rest : ∀ a, (f a).Follows (sittings o stop) post (m.next ⟨op, a⟩)) :
    (Prog.ask (I := calls) op >>= f).Follows (sittings o stop) post m :=
  .bind (.ask fun a => ⟨_, ⟨rfl, fun _ => mute⟩, rest a⟩)

variable {command : Command} {f : Except Exit Reply → Act B} {further : Bool} {domain : Str}

lemma step_minuted {f : Except Failure Reply → Act B} (going : ¬ m.sitting.Stopped o stop)
    (answered : ∀ reply, (f (.ok reply)).Follows (sittings o stop) post ((m.write command).hear reply))
    (silent : ∀ err, (f (.error err)).Follows (sittings o stop) post (m.write command).fails) :
    (step conn (some command) >>= f).Follows (sittings o stop) post m := by
  refine .bind (.bind (.ask fun written => ⟨_, ⟨rfl, fun stopped => absurd stopped going⟩, ?_⟩))
  cases written with
  | error err => exact silent err
  | ok _ =>
    refine .ask fun answer => ⟨_, ⟨rfl, fun _ => rfl⟩, ?_⟩
    cases answer with
    | error err => exact silent err
    | ok reply => exact answered reply

lemma acquire_minuted {f : Except Failure Unit → Act B} (going : ¬ m.sitting.Stopped o stop)
    (granted : ∀ m', m' = m ∨ m' = { m with drawn := false } → (f (.ok ())).Follows (sittings o stop) post m')
    (denied : ∀ err, (f (.error err)).Follows (sittings o stop) post m.unpaid) :
    (acquire o req >>= f).Follows (sittings o stop) post m := by
  refine .bind ?_
  unfold acquire
  split
  · refine .bind (.ask fun answer => ⟨_, ⟨rfl, fun stopped => absurd stopped going⟩, ?_⟩)
    cases answer with
    | ok _ => exact quiet_minuted (notify_only _ _) fun _ => granted _ (.inr rfl)
    | error err => exact denied err
  · exact granted m (.inl rfl)

lemma farewell_minuted {f : Except Failure Unit → Act B} (closing : m.closing = true)
    (ours : command = .rset ∨ command = .quit)
    (rest : ∀ a m', m'.closing = true → m'.sitting = m.sitting → m'.past = m.past → m'.grouped = m.grouped →
      m'.upset = m.upset → (f a).Follows (sittings o stop) post m') :
    (writeLine conn command >>= f).Follows (sittings o stop) post m := by
  have mute : (Op.write conn command).asks = false := by rcases ours with rfl | rfl <;> rfl
  refine call_minuted mute fun written => ?_
  cases written with
  | ok _ => exact rest _ _ closing rfl rfl rfl rfl
  | error err =>
    refine rest _ _ closing ?_ rfl rfl ?_
    · simp [Minutes.next, Minutes.fails, Minutes.depends, Minutes.write, closing]
    · rcases ours with rfl | rfl <;> simp [Minutes.next, Minutes.fails, Minutes.write, Dialogue.asks]

lemma teardown_minuted {f : Unit → Act B} (passed : Over o stop start m exit)
    (rest : ∀ m', Over o stop start m' exit → (f ()).Follows (sittings o stop) post m') :
    (teardown conn >>= f).Follows (sittings o stop) post m := by
  refine .bind (call_minuted rfl fun _ => ?_)
  refine farewell_minuted rfl (.inl rfl) fun _ m₁ closing₁ sitting₁ past₁ grouped₁ upset₁ => ?_
  refine farewell_minuted closing₁ (.inr rfl) fun _ m₂ _ sitting₂ past₂ grouped₂ upset₂ => ?_
  exact rest m₂ (passed.moved (sitting₂.trans sitting₁) (past₂.trans past₁) (grouped₂.trans grouped₁)
    (upset₂.trans upset₁))

lemma regroupFrom_minuted {reason : FallbackReason} {reply : Str} {f : Exit → Act B}
    (passed : Over o stop start m { results := p.out, verdicts := p.verdicts, rest := left })
    (rest : ∀ m', Over o stop start m' { results := p.out, verdicts := p.verdicts, rest := left } →
      (f { results := p.out, verdicts := p.verdicts, rest := left }).Follows (sittings o stop) post m') :
    (regroupFrom o req conn p left reason reply >>= f).Follows (sittings o stop) post m :=
  .bind (quiet_minuted (fallBack_only _ _ _ _) fun _ => teardown_minuted passed rest)

/-! ## The commands between the questions -/

lemma Seated.wrote (seated : Seated o stop start m p left) (other : isMailFrom command = false) :
    Unmoved m (m.write command) where
  same := ⟨rfl, rfl, rfl, rfl⟩
  answers := rfl
  mails := by simp [Minutes.write, Dialogue.asks, other]
  upset := rfl
  drawn := seated.undrawn.symm
  closing := rfl

lemma Seated.mailed (seated : Seated o stop start m p left) (sender : Str) :
    Seated o stop start (m.write (.mailFrom sender)) p left ∧ (m.write (.mailFrom sender)).mails = m.mails + 1 :=
  ⟨⟨⟨seated.same.addrs, seated.same.rerun, seated.same.past, seated.same.grouped⟩, seated.out, seated.asked,
    seated.run, seated.whole, seated.judged, seated.going, seated.even, rfl, seated.staying⟩, rfl⟩

lemma Seated.failed (seated : Seated o stop start m p left) (other : m.due ≠ some .startTLS)
    (ours : m.due.any isBogus = false) (err : Failure) :
    Over o stop start m.fails (p.unattempted left (dropped (classifyNetErr err) err)) := by
  have calm : Unmoved m m.fails := by
    refine ⟨⟨rfl, rfl, rfl, rfl⟩, rfl, rfl, ?_, rfl, rfl⟩
    simp [Minutes.fails, other]
  refine seated.gaveUp calm (.unreached ?_)
  cases replied : m.sitting.replied with
  | false => exact .inl replied
  | true => exact .inr (by simp [Minutes.fails, Minutes.depends, replied, ours, seated.staying])

lemma reopen_minuted {f : Except Exit Unit → Act B}
    (ours : command = .rset ∨ ∃ sender, command = .mailFrom sender) (seated : Seated o stop start m p left)
    (opened : ∀ m', Seated o stop start m' p left → m'.mails = (m.write command).mails →
      (f (.ok ())).Follows (sittings o stop) post m') (passed : HandsOn o stop start post f) :
    (reopen o req conn p left command >>= f).Follows (sittings o stop) post m := by
  have written : Seated o stop start (m.write command) p left := by
    rcases ours with rfl | ⟨sender, rfl⟩
    · exact seated.moved (seated.wrote rfl)
    · exact (seated.mailed sender).1
  have due : (m.write command).due = some command := rfl
  refine .bind (step_minuted seated.going (fun reply => ?_) fun err => passed _ _ ?_)
  · have calm : Unmoved (m.write command) ((m.write command).hear reply) := by
      refine Minutes.hear_unmoved ?_
      rw [due]
      rcases ours with rfl | ⟨sender, rfl⟩ <;> rfl
    have heard := written.moved calm
    dsimp only
    split
    · exact opened _ heard calm.mails
    · split
      · refine quiet_minuted (observe_only _ _ _) fun _ => passed _ _ ?_
        exact .giveUp heard.same heard.even heard.out heard.whole heard.judged heard.going .turned
      · refine regroupFrom_minuted ?_ fun m' ended => passed m' _ ended
        exact .handBack heard.same heard.even heard.out heard.whole heard.judged heard.going
  · refine written.failed ?_ ?_ err
    · rw [due]
      rcases ours with rfl | ⟨sender, rfl⟩ <;> simp
    · rw [due]
      rcases ours with rfl | ⟨sender, rfl⟩ <;> rfl

lemma nextTransaction_minuted {f : Except Exit Unit → Act B} (seated : Seated o stop start m p left)
    (opened : ∀ m', Seated o stop start m' p left → m'.mails = m.mails + 1 →
      (f (.ok ())).Follows (sittings o stop) post m') (passed : HandsOn o stop start post f) :
    (nextTransaction o req conn p left >>= f).Follows (sittings o stop) post m := by
  refine .bind (reopen_minuted (.inl rfl) seated (fun mid seated₁ mails₁ => ?_) passed)
  refine .of_bind (reopen_minuted (.inr ⟨_, rfl⟩) seated₁ (fun m' seated₂ mails₂ => ?_) passed)
  refine opened m' seated₂ (mails₂.trans ?_)
  change mid.mails + 1 = m.mails + 1
  rw [mails₁]
  rfl

/-! ## Questions about real recipients -/

lemma Seated.answered {h : Heard} (seated : Seated o stop start m p (h.addr :: later)) :
    SameSitting start (m.answered h) ∧ (p.book h.addr (h.result o)).out = booked o (m.answered h).sitting.answers ∧
      (m.answered h).sitting.addrs = (m.answered h).sitting.answers.map Heard.addr ++ later := by
  refine ⟨⟨seated.same.addrs, seated.same.rerun, seated.same.past, seated.same.grouped⟩, ?_, ?_⟩
  · change p.out.insert h.addr (h.result o) = booked o (m.sitting.answers ++ [h])
    rw [booked_snoc, seated.out]
  · change m.sitting.addrs = (m.sitting.answers ++ [h]).map Heard.addr ++ later
    rw [seated.whole, List.map_append, List.append_assoc]
    rfl

lemma Seated.booked_run {h : Heard} (seated : Seated o stop start m p (h.addr :: later)) (direct : h.relay = false) :
    (p.book h.addr (h.result o)).policyRun = policyRun o (m.answered h).sitting.answers := by
  change (if (h.result o).cls = .policy then p.policyRun + 1 else 0) = policyRun o (m.sitting.answers ++ [h])
  rw [policyRun_snoc, Heard.blames, direct, Heard.result_cls direct, seated.run]
  simp

lemma pay_minuted {f : Except Failure Unit → Act B} (seated : Seated o stop start m p left)
    (paid : (f (.ok ())).Follows (sittings o stop) post m)
    (passed : ∀ m' err, Over o stop start m' (p.unattempted left (dropped (budgetClass err) err)) →
      (f (.error err)).Follows (sittings o stop) post m') :
    (pay o req p.asked >>= f).Follows (sittings o stop) post m := by
  unfold pay
  split
  · rename_i some
    refine acquire_minuted seated.going (fun m' moved => ?_) fun err => passed _ err ?_
    · rw [undrawn_eq seated.undrawn, or_self] at moved
      exact moved ▸ paid
    · have answered : m.sitting.answers ≠ [] := by
        intro none
        rw [seated.asked, none] at some
        cases some
      refine seated.gaveUp ⟨⟨rfl, rfl, rfl, rfl⟩, rfl, rfl, rfl, seated.undrawn.symm, rfl⟩ (.late ?_)
      simp [Minutes.unpaid, answered, seated.undrawn]
  · exact paid

lemma askOne_minuted {f : Except Exit Progress → Act B} (limit : stop = o.policyStopFor req)
    (seated : Seated o stop start m p (addr :: later)) (same : further = m.further)
    (answered : ∀ m' p', Seated o stop start m' p' later → m'.mails = m.mails →
      (f (.ok p')).Follows (sittings o stop) post m') (passed : HandsOn o stop start post f) :
    (askOne o req conn further addr later p >>= f).Follows (sittings o stop) post m := by
  have asking : Seated o stop start (m.write (.rcpt addr)) p (addr :: later) := seated.moved (seated.wrote rfl)
  refine .bind (pay_minuted seated ?_ fun m' err ended => passed m' _ ended)
  refine step_minuted seated.going (fun reply => ?_) fun err => passed _ _ (asking.failed (by simp [Minutes.write, Dialogue.asks]) rfl err)
  let h : Heard := { addr := addr, reply := reply, further := further }
  dsimp only
  split
  · rename_i refused
    have refused : h.limit = true := refused
    rw [Minutes.hear_limit (h := h) same refused]
    refine regroupFrom_minuted (.handBack ?_ asking.even asking.out asking.whole asking.judged asking.going)
      fun m' => passed m' _
    exact ⟨asking.same.addrs, asking.same.rerun, asking.same.past, asking.same.grouped⟩
  · rename_i unlimited
    have kept : h.limit = false := Bool.eq_false_iff.mpr unlimited
    rw [Minutes.hear_answer (h := h) same kept]
    obtain ⟨sat, out, whole⟩ := Seated.answered (h := h) seated
    refine quiet_minuted (report_only _ _ _ _ _) fun _ => ?_
    split
    · rename_i refused
      have refused : h.relay = true := refused
      refine regroupFrom_minuted (.handBack sat seated.even out whole seated.judged (Sitting.not_stopped ?_))
        fun m' => passed m' _
      change policyRun o (m.sitting.answers ++ [h]) = 0
      rw [policyRun_snoc, Heard.blames, refused]
      rfl
    · rename_i direct
      have direct : h.relay = false := Bool.eq_false_iff.mpr direct
      have relay : (further && relayRefusal reply.code reply.text) = false := direct
      have run := Seated.booked_run (h := h) seated direct
      have result : answerResult o reply (further && relayRefusal reply.code reply.text) = h.result o := rfl
      rw [result]
      split
      · rename_i full
        have stopped : (m.answered h).sitting.Stopped o stop := by
          rw [Sitting.Stopped, ← run, limit]
          exact full
        refine teardown_minuted ⟨sat, seated.even, seated.judged, ?_⟩ fun m' ended => passed m' _ ended
        rw [Progress.unattempted, out, run]
        exact .giveUp whole rfl ⟨rfl, rfl⟩ fun addr fresh => .stopped stopped fresh .rfl
      · rename_i going
        refine answered _ _ ⟨sat, out, ?_, run, whole, seated.judged, ?_, seated.even, rfl, seated.staying⟩ rfl
        · change p.asked + 1 = (m.sitting.answers ++ [h]).length
          rw [seated.asked, List.length_append]
          rfl
        · rw [Sitting.Stopped, ← run, limit]
          exact going

lemma askAddrs_minuted {f : Except Exit Progress → Act B} (limit : stop = o.policyStopFor req)
    (seated : Seated o stop start m p (addrs ++ later)) (same : further = m.further)
    (answered : ∀ m' p', Seated o stop start m' p' later → m'.mails = m.mails →
      (f (.ok p')).Follows (sittings o stop) post m') (passed : HandsOn o stop start post f) :
    (askAddrs o req conn further later addrs p >>= f).Follows (sittings o stop) post m := by
  induction addrs generalizing m p with
  | nil => exact answered m p seated rfl
  | cons addr addrs ih =>
    refine .bind (askOne_minuted limit seated same (fun mid p₁ seated₁ mails₁ => ?_) passed)
    refine .of_bind (ih seated₁ ?_ fun m' p' seated' mails' => answered m' p' seated' (mails'.trans mails₁))
    rw [same, seated.same.further, seated₁.same.further, mails₁]

/-! ## The catch-all question -/

lemma bogus_minuted {bogus : Str} {f : Except Failure Reply → Act B}
    (seated : Seated o stop start { m with drawn := false } p left)
    (rest : ∀ answer m', Seated o stop start m' p left → m'.mails = m.mails →
      (f answer).Follows (sittings o stop) post m') :
    (step conn (some (.bogus bogus)) >>= f).Follows (sittings o stop) post m := by
  have asking : Unmoved { m with drawn := false } (m.write (.bogus bogus)) := seated.wrote rfl
  refine step_minuted seated.going (fun reply => ?_) fun err => ?_
  · have heard : Unmoved (m.write (.bogus bogus)) ((m.write (.bogus bogus)).hear reply) := Minutes.hear_unmoved rfl
    exact rest _ _ ((seated.moved asking).moved heard) (heard.mails.trans asking.mails)
  · have failed : Unmoved (m.write (.bogus bogus)) (m.write (.bogus bogus)).fails := by
      refine ⟨⟨rfl, rfl, rfl, rfl⟩, rfl, rfl, ?_, rfl, rfl⟩
      simp [Minutes.fails, Minutes.write, Dialogue.asks]
    exact rest _ _ ((seated.moved asking).moved failed) (failed.mails.trans asking.mails)

lemma bogusAddress_minuted {f : Except Failure Str → Act B}
    (drawn : ∀ bogus, (f (.ok bogus)).Follows (sittings o stop) post { m with drawn := true })
    (undrawn : ∀ err, (f (.error err)).Follows (sittings o stop) post m) :
    (bogusAddress domain >>= f).Follows (sittings o stop) post m := by
  refine .bind ?_
  unfold bogusAddress
  split
  · exact undrawn _
  · refine call_minuted rfl fun answer => ?_
    cases answer with
    | error err => exact undrawn _
    | ok nonce => exact drawn _

lemma askBogus_minuted {audit : Bool} {n accepted answered : Nat} {f : Nat × Nat → Act B}
    (seated : Seated o stop start m p left) (rest : ∀ counts m', Seated o stop start m' p left → m'.mails = m.mails →
      (f counts).Follows (sittings o stop) post m') :
    (askBogus o req conn domain audit n accepted answered >>= f).Follows (sittings o stop) post m := by
  induction n generalizing m accepted answered with
  | zero => exact rest _ m seated rfl
  | succ n ih =>
    have undrawn := undrawn_eq seated.undrawn
    refine .bind (bogusAddress_minuted (fun bogus => ?_) fun err => rest _ m seated rfl)
    refine acquire_minuted seated.going (fun paid moved => ?_) fun err => ?_
    · have seated₁ : Seated o stop start { paid with drawn := false } p left := by
        rcases moved with rfl | rfl <;> exact undrawn.symm ▸ seated
      have mails₁ : paid.mails = m.mails := by
        rcases moved with rfl | rfl <;> rfl
      refine bogus_minuted seated₁ fun answer m₂ seated₂ mails₂ => ?_
      have on : ∀ counts m', Seated o stop start m' p left → m'.mails = m₂.mails →
          (f counts).Follows (sittings o stop) post m' :=
        fun counts m' seated' mails' => rest counts m' seated' (mails'.trans (mails₂.trans mails₁))
      cases answer with
      | error err => exact on _ _ seated₂ rfl
      | ok reply =>
        dsimp only
        split
        · exact .of_bind (ih seated₂ on)
        · split
          · exact .of_bind (ih seated₂ on)
          · exact on _ _ seated₂ rfl
    · -- The token was for the name just drawn.
      have same : ({ m with drawn := true } : Minutes).unpaid = m := by
        simpa [Minutes.unpaid] using undrawn
      rw [same]
      exact rest _ m seated rfl

lemma askCatchAll_minuted {out : Results} {f : CatchAllVerdict → Act B} (seated : Seated o stop start m p left)
    (rest : ∀ v m', (∃ accepted answered, v = decideCatchAll accepted answered) → Seated o stop start m' p left →
      m'.mails = m.mails → (f v).Follows (sittings o stop) post m') :
    (askCatchAll o req conn domain addrs out >>= f).Follows (sittings o stop) post m := by
  refine .bind ?_
  unfold askCatchAll
  split
  · refine quiet_minuted (auditDrawn_only _) fun audit => ?_
    refine askBogus_minuted seated fun counts m' seated' mails' => ?_
    exact quiet_minuted (countCatchAll_only _ _) fun _ => rest _ m' ⟨_, _, rfl⟩ seated' mails'
  · exact quiet_minuted (countCatchAll_only _ _) fun _ => rest _ m ⟨0, 0, rfl⟩ seated rfl

/-! ## Groups -/

lemma askGroup_minuted {g : SessionGroup} {f : Except Exit Progress → Act B}
    (limit : stop = o.policyStopFor req) (seated : Seated o stop start m p (g.addrs ++ later)) (same : further = m.further)
    (answered : ∀ m' p', Seated o stop start m' p' later → m'.mails = m.mails →
      (f (.ok p')).Follows (sittings o stop) post m') (passed : HandsOn o stop start post f) :
    (askGroup o req conn further later g p >>= f).Follows (sittings o stop) post m := by
  refine .bind (askAddrs_minuted limit seated same (fun mid p₁ seated₁ mails₁ => ?_) passed)
  dsimp only
  split
  · refine askCatchAll_minuted seated₁ fun v m' own seated' mails' => answered m' _ ?_ (mails'.trans mails₁)
    exact ⟨seated'.same, seated'.out, seated'.asked, seated'.run, seated'.whole, seated'.judged.insert own,
      seated'.going, seated'.even, seated'.undrawn, seated'.staying⟩
  · exact answered mid p₁ seated₁ mails₁

lemma Seated.all (seated : Seated o stop start m p []) :
    Over o stop start m { results := p.out, verdicts := p.verdicts } :=
  .handBack seated.same seated.even seated.out seated.whole seated.judged seated.going

lemma askGroups_further_minuted (limit : stop = o.policyStopFor req)
    (seated : Seated o stop start m p (groups.flatMap SessionGroup.addrs)) (begun : 1 ≤ m.mails) :
    (askGroups o req conn start.grouped false groups p).Follows (sittings o stop)
      (fun exit m' => Over o stop start m' exit) m := by
  induction groups generalizing m p with
  | nil => exact teardown_minuted seated.all fun m' ended => ended
  | cons g groups ih =>
    rw [List.flatMap_cons] at seated
    refine nextTransaction_minuted seated (fun mid seated₁ mails₁ => ?_) fun m' exit ended => ended
    refine askGroup_minuted limit seated₁ ?_ (fun m' p' seated' mails' => ?_) fun m' exit ended => ended
    · have two : 1 < mid.mails := by omega
      simp [seated₁.same.further, two]
    · exact ih seated' (by omega)

lemma askGroups_minuted (limit : stop = o.policyStopFor req)
    (seated : Seated o stop start m p (groups.flatMap SessionGroup.addrs)) (begun : m.mails = 1) :
    (askGroups o req conn start.grouped true groups p).Follows (sittings o stop)
      (fun exit m' => Over o stop start m' exit) m := by
  cases groups with
  | nil => exact teardown_minuted seated.all fun m' ended => ended
  | cons g groups =>
    rw [List.flatMap_cons] at seated
    refine .bind (askGroup_minuted limit seated ?_ (fun m' p' seated' mails' => ?_) fun m' exit ended => ended)
    · simp [seated.same.further, begun]
    · exact askGroups_further_minuted limit seated' (by omega)

/-! ## From the gates to the first question -/

/-- A session that has not come to its questions. -/
abbrev Opened (o : Options) (stop : Int) (start m : Minutes) (addrs : List Str) : Prop :=
  Seated o stop start m {} addrs

section
variable (opened : Opened o stop start m addrs)
include opened

lemma Opened.failAll (unmoved : Unmoved m m') (cause : Cause o { m'.sitting with rest := [] } r) : Over o stop start m' (failAll addrs r) :=
  opened.gaveUp unmoved cause

lemma wanted_minuted {want : Int} {reply : Reply} (met : (f (.ok reply)).Follows (sittings o stop) post m)
    (passed : HandsOn o stop start post f) :
    ((if reply.code = want then pure (.ok reply)
      else do
        observe o req.mxHost (beforeRCPT o reply)
        refused o req.mxHost (beforeRCPT o reply) reply.text
        pure (.error (failAll addrs
          (failure o (beforeRCPT o reply) reply.code reply.text [])))) : Act (Except Exit Reply)).Follows
      (sittings o stop) (fun answer m' => (f answer).Follows (sittings o stop) post m') m := by
  split
  · exact met
  · refine quiet_minuted (observe_only _ _ _) fun _ => quiet_minuted (refused_only _ _ _ _) fun _ => passed _ _ ?_
    exact opened.failAll .rfl .turned

lemma banner_minuted (fresh : m.due = none)
    (met : ∀ reply m', Unmoved m m' → (f (.ok reply)).Follows (sittings o stop) post m')
    (passed : HandsOn o stop start post f) :
    (expect o req addrs conn none 220 >>= f).Follows (sittings o stop) post m := by
  refine .bind (call_minuted rfl fun answer => ?_)
  cases answer with
  | ok reply =>
    have heard : Unmoved m (m.hear reply) := Minutes.hear_unmoved (by rw [fresh]; rfl)
    exact wanted_minuted (opened.moved heard) (met reply _ heard) passed
  | error err =>
    refine passed _ _ ?_
    rw [failure_unreached]
    exact opened.failed (by simp [fresh]) (by rw [fresh]; rfl) err

lemma expect_minuted {want : Int} (plain : command ≠ .startTLS ∧ isRcpt command = false ∧ isBogus command = false)
    (asking : Opened o stop start (m.write command) addrs)
    (met : ∀ reply m', Unmoved (m.write command) m' → (f (.ok reply)).Follows (sittings o stop) post m')
    (passed : HandsOn o stop start post f) :
    (expect o req addrs conn (some command) want >>= f).Follows (sittings o stop) post m := by
  obtain ⟨other, real, ours⟩ := plain
  refine .bind (step_minuted opened.going (fun reply => ?_) fun err => passed _ _ ?_)
  · have heard : Unmoved (m.write command) ((m.write command).hear reply) := Minutes.hear_unmoved real
    exact wanted_minuted (asking.moved heard) (met reply _ heard) passed
  · rw [failure_unreached]
    exact asking.failed (by simpa [Minutes.write, Dialogue.asks] using other) ours err

lemma ehlo_minuted {helo : Str} (met : ∀ reply m', Unmoved m m' → (f (.ok reply)).Follows (sittings o stop) post m')
    (passed : HandsOn o stop start post f) :
    (expect o req addrs conn (some (.ehlo helo)) 250 >>= f).Follows (sittings o stop) post m :=
  have wrote : Unmoved m (m.write (.ehlo helo)) := opened.wrote rfl
  expect_minuted opened ⟨by simp, rfl, rfl⟩ (opened.moved wrote)
    (fun reply m' heard => met reply m' (wrote.trans heard)) passed

lemma negotiate_minuted {ehlo : Str} {f : Secured → Act B}
    (failed : ∀ err m', SameSitting start m' → m'.upset = true → req.skipTLS = false →
      (f (.failed err)).Follows (sittings o stop) post m')
    (settled : ∀ secured m', (∀ err, secured ≠ .failed err) → Unmoved m m' →
      (f secured).Follows (sittings o stop) post m') :
    (negotiate o req conn ehlo >>= f).Follows (sittings o stop) post m := by
  refine .bind ?_
  unfold negotiate
  split
  · exact settled _ _ nofun .rfl
  · rename_i first
    have first : req.skipTLS = false := Bool.eq_false_iff.mpr first
    split
    · exact settled _ _ nofun .rfl
    · refine quiet_minuted (tlsBroken_only _ _) fun broken => ?_
      split
      · exact settled _ _ nofun .rfl
      · have wrote : Unmoved m (m.write .startTLS) := opened.wrote rfl
        refine step_minuted opened.going (fun reply => ?_) fun err => failed err _ ?_ ?_ first
        · have heard : Unmoved (m.write .startTLS) ((m.write .startTLS).hear reply) := Minutes.hear_unmoved rfl
          have on := wrote.trans heard
          dsimp only
          split
          · exact settled _ _ nofun on
          · refine .bind (.ask fun answer => ⟨_, ⟨rfl, fun _ => rfl⟩, ?_⟩)
            cases answer with
            | error err => exact failed err _ (opened.same.trans ⟨on.same.addrs, on.same.rerun, on.same.past, on.same.grouped⟩) rfl first
            | ok verified => exact settled _ _ nofun on
        · exact opened.same.trans ⟨rfl, rfl, rfl, rfl⟩
        · simp [Minutes.fails, Minutes.write, Dialogue.asks]

end

lemma transact_minuted (limit : stop = o.policyStopFor req)
    (opened : Opened o stop start m (groups.flatMap SessionGroup.addrs)) (fresh : m.mails = 0) :
    (transact o req groups start.grouped conn).Follows (sittings o stop)
      (fun exit m' => Over o stop start m' exit) m := by
  obtain ⟨mailed, one⟩ := opened.mailed (req.mailFromFor o)
  refine expect_minuted opened ⟨by simp, rfl, rfl⟩ mailed (fun reply m' heard => ?_) fun m' exit ended => ended
  exact askGroups_minuted limit (mailed.moved heard) (by rw [heard.mails, one, fresh])

def Talk.Minuted (o : Options) (stop : Int) (req : Request) (start : Minutes) : Talk → Minutes → Prop
  | .ended _ _ exit, m => Over o stop start m exit
  | .rerun _, m => SameSitting start m ∧ m.upset = true ∧ req.skipTLS = false

lemma converse_minuted (limit : stop = o.policyStopFor req)
    (opened : Opened o stop start m (groups.flatMap SessionGroup.addrs)) (fresh : m.mails = 0) (due : m.due = none) :
    (converse o req groups start.grouped conn).Follows (sittings o stop)
      (fun talk m' => talk.Minuted o stop req start m') m := by
  refine banner_minuted opened due (fun banner m₁ on₁ => ?_) fun m' exit ended => ended
  refine ehlo_minuted (opened.moved on₁) (fun ehlo m₂ on₂ => ?_) fun m' exit ended => ended
  have on := on₁.trans on₂
  refine negotiate_minuted (opened.moved on) (fun err m' same upset first => ⟨same, upset, first⟩) ?_
  intro secured m₃ unfailed on₃
  have on := on.trans on₃
  cases secured with
  | failed err => exact absurd rfl (unfailed err)
  | plain outcome =>
    exact (transact_minuted limit (opened.moved on) (on.mails.trans fresh)).andThen fun exit m' ended => ended
  | upgraded verified =>
    refine ehlo_minuted (opened.moved on) (fun again m₄ on₄ => ?_) fun m' exit ended => ended
    have on := on.trans on₄
    exact (transact_minuted limit (opened.moved on) (on.mails.trans fresh)).andThen fun exit m' ended => ended

/-! ## The whole session -/

lemma vet_minuted {f : Except Exit (List Addr) → Act B} (opened : Opened o stop start m addrs)
    (silent : m.sitting.replied = false) (vetted : ∀ ips, (f (.ok ips)).Follows (sittings o stop) post m)
    (passed : ∀ exit, Over o stop start m exit → (f (.error exit)).Follows (sittings o stop) post m) :
    (vet o req addrs >>= f).Follows (sittings o stop) post m := by
  have resolved : (resolveHost o req addrs).Follows (sittings o stop)
      (fun a m' => (f a).Follows (sittings o stop) post m') m := by
    refine call_minuted rfl fun answer => ?_
    cases answer with
    | ok ips => exact vetted ips
    | error err =>
      refine passed _ ?_
      split
      · exact opened.failAll .rfl (.barred (.inl rfl))
      · rw [failure_unreached]
        exact opened.failAll .rfl (.unreached (.inl silent))
  refine .bind (.bind ?_)
  unfold standDown
  split
  · refine .ask fun answer => ⟨_, ⟨rfl, fun _ => rfl⟩, ?_⟩
    obtain ⟨yes, why⟩ := answer
    cases yes with
    | true => exact passed _ (opened.failAll .rfl (.barred (.inr rfl)))
    | false => exact resolved
  · exact resolved

lemma leaseSession_minuted {f : Except Failure (Option Lease) → Act B}
    (answered : ∀ answer, (f answer).Follows (sittings o stop) post m) :
    (leaseSession o req >>= f).Follows (sittings o stop) post m := by
  refine .bind ?_
  unfold leaseSession
  split
  · refine call_minuted rfl fun answer => ?_
    cases answer with
    | ok lease => exact quiet_minuted (notify_only _ _) fun _ => answered _
    | error err => exact answered _
  · exact answered _

structure Fresh (o : Options) (stop : Int) (start m : Minutes) (addrs : List Str) : Prop where
  opened : Opened o stop start m addrs
  silent : m.sitting.replied = false

lemma Fresh.redialled (fresh : Fresh o stop start m addrs) :
    Fresh o stop start { m with due := none, mails := 0 } addrs where
  opened := ⟨⟨fresh.opened.same.addrs, fresh.opened.same.rerun, fresh.opened.same.past, fresh.opened.same.grouped⟩,
    fresh.opened.out, fresh.opened.asked, fresh.opened.run, fresh.opened.whole, fresh.opened.judged,
    fresh.opened.going, fresh.opened.even, fresh.opened.undrawn, fresh.opened.staying⟩
  silent := fresh.silent

lemma dialAny_minuted {ips : List Addr} {lastErr : Failure} {f : Except Failure Conn → Act B}
    (fresh : Fresh o stop start m addrs)
    (dialled : ∀ conn m', Fresh o stop start m' addrs → m'.mails = 0 → m'.due = none →
      (f (.ok conn)).Follows (sittings o stop) post m')
    (undialled : ∀ err m', Fresh o stop start m' addrs → (f (.error err)).Follows (sittings o stop) post m') :
    (dialAny o ips lastErr >>= f).Follows (sittings o stop) post m := by
  induction ips generalizing m lastErr with
  | nil => exact undialled _ m fresh
  | cons a more ih =>
    refine .bind (call_minuted rfl fun answer => ?_)
    cases answer with
    | ok socket => exact dialled _ _ fresh.redialled rfl rfl
    | error err => exact .of_bind (ih fresh.redialled)

lemma connect_minuted {ips : List Addr} {f : Except Exit Conn → Act B} (fresh : Fresh o stop start m addrs)
    (connected : ∀ conn m', Fresh o stop start m' addrs → m'.mails = 0 → m'.due = none →
      (f (.ok conn)).Follows (sittings o stop) post m') (passed : HandsOn o stop start post f) :
    (connect o req addrs ips >>= f).Follows (sittings o stop) post m := by
  refine .bind (acquire_minuted fresh.opened.going (fun m₁ moved => ?_) fun err => passed _ _ ?_)
  · rw [undrawn_eq fresh.opened.undrawn, or_self] at moved
    subst moved
    refine dialAny_minuted fresh (fun conn m' fresh' mails due => ?_) fun err m' fresh' => passed _ _ ?_
    · exact call_minuted rfl fun _ => connected conn m' fresh' mails due
    · rw [failure_unreached]
      exact fresh'.opened.failAll .rfl (.unreached (.inl fresh'.silent))
  · exact fresh.opened.failAll ⟨⟨rfl, rfl, rfl, rfl⟩, rfl, rfl, rfl, fresh.opened.undrawn.symm, rfl⟩ .unpaid

lemma stampTLS_minuted {tls : Option TLSOutcome} {f : Exit → Act B} (passed : Over o stop start m exit)
    (rest : ∀ stamped, Over o stop start m stamped → (f stamped).Follows (sittings o stop) post m) :
    (stampTLS o groups exit tls >>= f).Follows (sittings o stop) post m := by
  refine .bind ?_
  cases tls with
  | none => exact rest exit passed
  | some outcome =>
    refine quiet_minuted (notify_only _ _) fun _ => quiet_minuted (notify_only _ _) fun _ => rest _ ?_
    refine ⟨passed.same, passed.even, passed.judged, ?_⟩
    exact passed.outcome.mapVals (f := fun _ r => { r with tls := some outcome }) (fun _ r origin => origin.same rfl)
      fun _ r plain => ⟨plain.catchAll, plain.randomiser⟩

lemma releaseLease_minuted {lease : Option Lease} {f : Unit → Act B}
    (rest : (f ()).Follows (sittings o stop) post m) : (releaseLease lease >>= f).Follows (sittings o stop) post m := by
  cases lease with
  | none => exact rest
  | some lease => exact call_minuted rfl fun _ => rest

/-- One session was held and is in the minutes, which explain its results. -/
structure Entered (o : Options) (stop : Int) (explains : Sitting → Str → Result → Prop) (groups : List SessionGroup)
    (m : Minutes) (exit : Exit) (s : Sitting) (m' : Minutes) : Prop where
  past : m'.past = m.past ++ [s]
  even : m'.upset = false
  addrs : s.addrs = groups.flatMap SessionGroup.addrs
  rest : s.rest = exit.rest
  judged : Judged exit.verdicts
  outcome : Outcome o stop s (explains s) exit.results

variable {explains : Sitting → Str → Result → Prop}

lemma finish_minuted (passed : Over o stop start m exit) (begun : start.past = m'.past)
    (given : start.sitting.addrs = groups.flatMap SessionGroup.addrs)
    (own : ∀ s addr r, s.rerun = start.sitting.rerun → Origin o stop s addr r → explains s addr r) :
    (finish exit).Follows (sittings o stop) (fun exit m'' => ∃ s, Entered o stop explains groups m' exit s m'') m := by
  refine call_minuted rfl fun _ => ⟨{ m.sitting with rest := exit.rest }, ?_⟩
  change Entered o stop explains groups m' exit _ (m.leaves exit.rest)
  rw [Minutes.leaves_even passed.even]
  refine ⟨?_, passed.even, passed.same.addrs.trans given, rfl, passed.judged, ?_⟩
  · change m.past ++ _ = m'.past ++ _
    rw [passed.same.past, begun]
  · exact { passed.outcome with
      explained := fun addr r found => own _ addr r passed.same.rerun (passed.outcome.explained addr r found) }

lemma sessionBody_minuted (req : Request) {again : Request → Act Exit} {grouped : Bool}
    (limit : stop = o.policyStopFor req)
    (own : ∀ s addr r, s.rerun = m.upset → Origin o stop s addr r → explains s addr r)
    (rerun : req.skipTLS = false → ∀ mid upErr, mid.upset = true → mid.past = m.past →
      (again { req with skipTLS := true }).Follows (sittings o stop) (fun exit m' => ∃ s, Entered o stop explains groups m
        { exit with results := exit.results.mapVals fun _ r => afterRerun o upErr r } s m') mid) :
    (sessionBody o again req groups grouped).Follows (sittings o stop)
      (fun exit m' => ∃ s, Entered o stop explains groups m exit s m') m := by
  refine call_minuted rfl fun _ => ?_
  let start : Minutes := m.next ⟨.enter groups grouped, ()⟩
  have fresh : Fresh o stop start start (groups.flatMap SessionGroup.addrs) :=
    ⟨⟨.rfl, rfl, rfl, rfl, rfl, Judged.empty, Sitting.not_stopped rfl, rfl, rfl, rfl⟩, rfl⟩
  have finished {m₁ : Minutes} {exit : Exit} (passed : Over o stop start m₁ exit) :
      (finish exit).Follows (sittings o stop) (fun exit m' => ∃ s, Entered o stop explains groups m exit s m') m₁ :=
    finish_minuted passed rfl rfl own
  refine vet_minuted fresh.opened fresh.silent (fun ips => ?_) fun exit passed => finished passed
  refine leaseSession_minuted fun leased => ?_
  cases leased with
  | error err => exact finished (fresh.opened.failAll .rfl .unpaid)
  | ok lease =>
    refine connect_minuted fresh (fun conn m₁ fresh₁ mails due => ?_)
      fun m' exit passed => releaseLease_minuted (finished passed)
    refine (converse_minuted limit fresh₁.opened mails due).andThen fun talk m₂ talked => ?_
    cases talk with
    | ended last tls exit =>
      refine call_minuted rfl fun _ => releaseLease_minuted ?_
      exact stampTLS_minuted talked fun stamped passed => finished passed
    | rerun upErr =>
      obtain ⟨same, upset, first⟩ := talked
      refine quiet_minuted (markTLSBroken_only _ _) fun _ => ?_
      refine call_minuted rfl fun _ => releaseLease_minuted ?_
      refine call_minuted rfl fun _ => ?_
      change Prog.Follows _ _ _ (m₂.leaves [])
      rw [Minutes.leaves_upset upset]
      refine (rerun first m₂ upErr upset same.past).andThen fun exit m₃ entered => ?_
      exact quiet_minuted (notify_only _ _) fun _ => call_minuted rfl fun _ => entered

/-- Where a result comes from, as the request gets it: those of a rerun are looked
through once more. -/
inductive Sourced (o : Options) (stop : Int) (s : Sitting) (addr : Str) (r : Result) : Prop where
  | first : s.rerun = false → Origin o stop s addr r → Sourced o stop s addr r
  | rerun {base : Result} {upErr : Failure} : s.rerun = true → Origin o stop s addr base →
      r.SameAnswer (afterRerun o upErr base) → Sourced o stop s addr r

/-- A session is entered in the minutes, whoever it talks to. -/
lemma session_minuted {grouped : Bool} (limit : stop = o.policyStopFor req) (even : m.upset = false) :
    (session o req groups grouped).Follows (sittings o stop)
      (fun exit m' => ∃ s, Entered o stop (Sourced o stop) groups m exit s m') m := by
  refine sessionBody_minuted req limit (fun s addr r first origin => .first (first.trans even) origin) ?_
  intro _ mid upErr upset past
  have plain : (sessionBody o (fun _ => pure {}) { req with skipTLS := true } groups grouped).Follows (sittings o stop)
      (fun exit m' => ∃ s, Entered o stop (fun s addr r => s.rerun = true ∧ Origin o stop s addr r) groups mid exit s m')
      mid :=
    sessionBody_minuted { req with skipTLS := true } limit
      (fun s addr r second origin => ⟨second.trans upset, origin⟩) fun second => absurd second (by simp)
  refine plain.mono ?_
  rintro exit m' ⟨s, entered⟩
  refine ⟨s, entered.past.trans (by rw [past]), entered.even, entered.addrs, entered.rest, entered.judged, ?_⟩
  refine entered.outcome.mapVals (f := fun _ r => afterRerun o upErr r)
    (fun addr r known => Sourced.rerun known.1 known.2 .rfl) fun addr r plain => ?_
  unfold afterRerun
  split
  · exact ⟨plain.catchAll, plain.randomiser⟩
  · exact plain

end

end EmailVerifier.Prober
