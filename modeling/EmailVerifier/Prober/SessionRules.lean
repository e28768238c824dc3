import EmailVerifier.Prober.Backing
import EmailVerifier.Prober.Conduct

/-! The pieces of a session keep to the protocol.

Each rule is about one piece of `session` followed by the rest of the program: it
names the cases the piece can end in and the state each of them leaves.
-/

set_option autoImplicit false

namespace EmailVerifier.Prober
open Text Data Semantics

structure Fits (c : Scope) (o : Options) (req : Request) : Prop where
  host : c.host = req.mxHost
  helo : c.helo = req.heloFor o
  sender : c.sender = req.mailFromFor o
  port : c.port = o.portOr
  timeout : c.timeout = o.timeoutOr
  maxRCPT : c.maxRCPT = o.maxRCPT
  health : c.health = o.health
  leasing : c.leasing = o.leases
  paced : c.paced = o.paced

section
variable {Q : Op → Prop} {o : Options} {req : Request} {host : Str}

lemma notify_uses (wired : Bool) {notice : Notice} (told : Q (.notify notice)) : (notify wired notice).Only Q := by
  cases wired with
  | true => exact (Prog.only_ask _).mpr told
  | false => exact Prog.only_pure ()

lemma grouping_uses (loads : ∀ family, Q (.fallenLoad family)) : (grouping o host).Only Q := by
  unfold grouping
  split
  · exact Prog.only_pure _
  · split
    · exact .bind ((Prog.only_ask _).mpr (loads _)) fun _ => Prog.only_pure _
    · exact Prog.only_pure _

lemma fallBack_uses {reason : FallbackReason} {reply : Str} (loads : ∀ family, Q (.fallenLoad family))
    (stores : ∀ family, Q (.fallenLoadOrStore family)) (counts : ∀ metric, Q (.notify (.count metric)))
    (told : ∀ family, Q (.notify (.onFallback family host reason (redactReply reply o.replyLimit)))) :
    (fallBack o host reason reply).Only Q := by
  refine .bind (grouping_uses loads) fun ⟨family, _⟩ => ?_
  dsimp only
  split
  · exact Prog.only_pure _
  · refine .bind ((Prog.only_ask _).mpr (stores _)) fun already => ?_
    split
    · exact Prog.only_pure _
    · exact .bind (notify_uses _ (counts _)) fun _ => notify_uses _ (told _)

lemma acquire_uses (asks : Q (.acquire req.mxHost req.domain)) (told : Q (.notify (.onPaced req.mxHost))) :
    (acquire o req).Only Q := by
  unfold acquire
  split
  · refine .bind ((Prog.only_ask _).mpr asks) fun answer => ?_
    cases answer with
    | error err => exact Prog.only_pure _
    | ok _ => exact .bind (notify_uses _ told) fun _ => Prog.only_pure _
  · exact Prog.only_pure _

lemma bogusAddress_uses {domain : Str} (draws : Q .randRead) : (bogusAddress domain).Only Q := by
  unfold bogusAddress
  split
  · exact Prog.only_pure _
  · refine .bind ((Prog.only_ask _).mpr draws) fun answer => ?_
    cases answer <;> exact Prog.only_pure _

lemma auditDrawn_uses (draws : Q .randFloat) : (auditDrawn o).Only Q := by
  unfold auditDrawn
  split
  · exact Prog.only_pure _
  · exact .bind ((Prog.only_ask _).mpr draws) fun _ => Prog.only_pure _

lemma tlsBroken_uses (asks : Q (.tlsBroken host)) : (tlsBroken o host).Only Q := by
  unfold tlsBroken
  split
  · exact (Prog.only_ask _).mpr asks
  · exact Prog.only_pure _

lemma markTLSBroken_uses (marks : Q (.markTLSBroken host)) : (markTLSBroken o host).Only Q := by
  unfold markTLSBroken
  split
  · exact (Prog.only_ask _).mpr marks
  · exact Prog.only_pure _

end

lemma notify_only (wired : Bool) (notice : Notice) : (notify wired notice).Only Quiet := notify_uses _ trivial

section
variable (o : Options)

lemma observe_only (host : Str) (cls : Class) : (observe o host cls).Only Quiet :=
  notify_only _ _

lemma refused_only (host : Str) (cls : Class) (reply : Str) :
    (refused o host cls reply).Only Quiet := notify_only _ _

lemma countCatchAll_only (outcome : CatchAllOutcome) :
    (countCatchAll o outcome).Only Quiet := notify_only _ _

lemma grouping_only (host : Str) : (grouping o host).Only Quiet := grouping_uses fun _ => trivial

lemma fallBack_only (host : Str) (reason : FallbackReason) (reply : Str) : (fallBack o host reason reply).Only Quiet :=
  fallBack_uses (fun _ => trivial) (fun _ => trivial) (fun _ => trivial) fun _ => trivial

lemma auditDrawn_only : (auditDrawn o).Only Quiet := auditDrawn_uses trivial

lemma tlsBroken_only (host : Str) : (tlsBroken o host).Only Quiet := tlsBroken_uses trivial

lemma markTLSBroken_only (host : Str) : (markTLSBroken o host).Only Quiet := markTLSBroken_uses trivial

lemma report_only (req : Request) (r : Result) (relay : Bool) (text : Str) : (report o req r relay text).Only Quiet := by
  refine .bind (observe_only o req.mxHost r.cls) fun _ => ?_
  split
  · exact .bind (refused_only _ _ _ _) fun _ => notify_only _ _
  · exact Prog.only_pure _

end

section Rules

variable {c : Scope} {o : Options} {req : Request} {A B : Type} {w : Watch} {conn : Conn}
  {post : B → Watch → Prop}

lemma quiet_then {p : Act A} {f : A → Act B} (quiet : p.Only Quiet)
    (rest : ∀ a, (f a).Follows (Step c) post w) : (p >>= f).Follows (Step c) post w :=
  .bind (quiet.follows (fun _ _ member => .aside member.aside) rest)

lemma acquire_then {f : Except Failure Unit → Act B} (fits : Fits c o req) (inside : w.inside = true)
    (granted : ∀ paid, (c.paced = true → paid = true) →
      (f (.ok ())).Follows (Step c) post { w with paid := paid })
    (denied : ∀ err, (f (.error err)).Follows (Step c) post w) : (acquire o req >>= f).Follows (Step c) post w := by
  refine .bind ?_
  unfold acquire
  split
  · refine .bind (.ask fun answer => ?_)
    rw [← fits.host]
    match answer with
    | .ok () => exact ⟨_, .paid inside, quiet_then (notify_only _ _) fun _ => granted true fun _ => rfl⟩
    | .error err => exact ⟨_, .unpaid inside, denied err⟩
  · rename_i unpaced
    exact granted w.paid fun paced => absurd (fits.paced.symm.trans paced) unpaced

variable {sent : Watch} {domain : Str} {further : Bool} {f : Except Exit Progress → Act B}

lemma step_then {command : Option Command} {f : Except Failure Reply → Act B}
    (connected : w.conn = some conn) (asks : Asks c w command sent)
    (answered : ∀ reply, (f (.ok reply)).Follows (Step c) post (sent.hear command (.ok reply)))
    (silent : ∀ err, (f (.error err)).Follows (Step c) post { sent with stage := lost command }) :
    (step conn command >>= f).Follows (Step c) post w := by
  refine .bind ?_
  cases asks with
  | banner due =>
    refine .ask fun answer => ⟨_, .read connected due, ?_⟩
    match answer with
    | .ok reply => exact answered reply
    | .error err => exact silent err
  | @command command sent sends =>
    refine .bind (.ask fun written => ⟨_, .write connected sends, ?_⟩)
    match written with
    | .error err => exact silent err
    | .ok () =>
      refine .ask fun answer => ⟨_, .read (sends.conn.trans connected) rfl, ?_⟩
      match answer with
      | .ok reply => exact answered reply
      | .error err => exact silent err

lemma teardown_then {f : Unit → Act B} (connected : w.conn = some conn) (talking : w.stage ≠ .leaving)
    (rest : (f ()).Follows (Step c) post { w with stage := .leaving }) :
    (teardown conn >>= f).Follows (Step c) post w := by
  refine .bind (.bind (.ask fun _ => ⟨_, .leaving connected talking, ?_⟩))
  refine .bind (.ask fun _ => ⟨_, .bye connected rfl (.inl rfl), ?_⟩)
  exact .bind (.ask fun _ => ⟨_, .bye connected rfl (.inr rfl), rest⟩)

lemma regroupFrom_then {p : Progress} {left : List Str} {reason : FallbackReason} {reply : Str}
    {f : Exit → Act B} (connected : w.conn = some conn) (talking : w.stage ≠ .leaving)
    (rest : (f { results := p.out, verdicts := p.verdicts, rest := left }).Follows (Step c) post
      { w with stage := .leaving }) : (regroupFrom o req conn p left reason reply >>= f).Follows (Step c) post w :=
  .bind (quiet_then (fallBack_only _ _ _ _) fun _ => teardown_then connected talking rest)

lemma bogusAddress_then {f : Except Failure Str → Act B}
    (drawn : ∀ nonce, (f (.ok (bogusFor nonce domain))).Follows (Step c) post w)
    (undrawn : ∀ err, (f (.error err)).Follows (Step c) post w) :
    (bogusAddress domain >>= f).Follows (Step c) post w := by
  refine .bind ?_
  unfold bogusAddress
  split
  · exact undrawn _
  · refine .bind (.ask fun answer => ⟨w, .aside trivial, ?_⟩)
    match answer with
    | .ok nonce => exact drawn nonce
    | .error err => exact undrawn _

/-- How the addresses ahead were dealt with between two moments: each got a result or
was handed back, and at most one of those handed back had been asked. -/
def Parted (w w' : Watch) (done left : List Str) (exit : Exit) : Prop :=
  ∃ front asked, left = front ++ exit.rest ∧
    (∀ addr, (exit.results.lookup addr).isSome ↔ addr ∈ done ∨ addr ∈ front) ∧
    w'.sent = w.sent ++ asked ∧
    (asked <+: front ∨ ∃ addr, exit.rest.head? = some addr ∧ asked = front ++ [addr])

/-- How a dialogue ended, seen from the moment `w` of it, with the addresses `done`
behind it and `left` ahead. -/
structure Ended [Unicode] (o : Options) (conn : Conn) (w w' : Watch) (done left : List Str) (exit : Exit) :
    Prop where
  onward : Onward w w'
  connected : w'.conn = some conn
  backed : AllBacked o w'.answers exit.results
  parted : Parted w w' done left exit

/-- Between two questions: the results so far are those of `done`. -/
structure Poised [Unicode] (c : Scope) (o : Options) (conn : Conn) (w : Watch) (done : List Str)
    (p : Progress) : Prop where
  connected : w.conn = some conn
  inside : w.inside = true
  backed : AllBacked o w.answers p.out
  keys : ∀ addr, (p.out.lookup addr).isSome ↔ addr ∈ done
  /-- Before the first question its token is in hand and there are no results. -/
  unspent : p.asked = 0 → (c.paced = true → w.paid = true) ∧ p.out = ∅

variable {w' : Watch} {done left addrs : List Str} {p : Progress} {r : Result}

lemma Parted.failAll (unasked : w'.sent = w.sent) : Parted w w' [] addrs (failAll addrs r) := by
  refine ⟨addrs, [], (List.append_nil addrs).symm, ?_, ?_, .inl List.nil_prefix⟩
  · intro addr
    rw [Prober.failAll, Table.lookup_setAll]
    by_cases member : addr ∈ addrs <;> simp [member]
  · rw [unasked, List.append_nil]

lemma Parted.mapVals {done left : List Str} {exit : Exit} (parted : Parted w w' done left exit)
    (f : Str → Result → Result) : Parted w w' done left { exit with results := exit.results.mapVals f } := by
  obtain ⟨front, asked, same, keys, sent, split⟩ := parted
  refine ⟨front, asked, same, fun addr => ?_, sent, split⟩
  rw [← keys addr, Table.lookup_mapVals, Option.isSome_map]

variable [Unicode]

lemma Ended.failAll (onward : Onward w w') (connected : w'.conn = some conn)
    (unasked : w'.sent = w.sent) (none : Unanswered r) : Ended o conn w w' [] addrs (failAll addrs r) :=
  ⟨onward, connected, AllBacked.empty.setAll none, .failAll unasked⟩

lemma Ended.unattempted {asked : List Str} (poised : Poised c o conn w done p) (onward : Onward w w')
    (connected : w'.conn = some conn) (sent : w'.sent = w.sent ++ asked) (within : asked <+: left)
    (none : Unanswered r) : Ended o conn w w' done left (p.unattempted left r) := by
  refine ⟨onward, connected, (poised.backed.mono onward.answers).setAll none, left, asked,
    (List.append_nil left).symm, ?_, sent, .inl within⟩
  intro addr
  rw [Progress.unattempted, Table.lookup_setAll]
  by_cases member : addr ∈ left
  · simp [member]
  · simp [member, poised.keys]

lemma Ended.after {mid : Watch} {exit : Exit} (addrs : List Str) (onward : Onward w mid)
    (sent : mid.sent = w.sent ++ addrs) (ended : Ended o conn mid w' (done ++ addrs) left exit) :
    Ended o conn w w' done (addrs ++ left) exit := by
  obtain ⟨front, asked, rfl, keys, sent', within⟩ := ended.parted
  refine ⟨onward.trans ended.onward, ended.connected, ended.backed, addrs ++ front, addrs ++ asked,
    (List.append_assoc _ _ _).symm, ?_, ?_, ?_⟩
  · intro other
    rw [keys other, List.mem_append, List.mem_append, or_assoc]
  · rw [sent', sent, List.append_assoc]
  · rcases within with within | ⟨other, head, rfl⟩
    · exact .inl ((List.prefix_append_right_inj addrs).mpr within)
    · exact .inr ⟨other, head, (List.append_assoc _ _ _).symm⟩

lemma Poised.moved (poised : Poised c o conn w done p) (onward : Onward w w')
    (connected : w'.conn = some conn) (paid : p.asked = 0 → w'.paid = w.paid) :
    Poised c o conn w' done p where
  connected := connected
  inside := onward.inside.trans poised.inside
  backed := poised.backed.mono onward.answers
  keys := poised.keys
  unspent unasked := ⟨fun paced => (paid unasked).trans ((poised.unspent unasked).1 paced),
    (poised.unspent unasked).2⟩

lemma expect_then {command : Option Command} {want : Int} {f : Except Exit Reply → Act B}
    (connected : w.conn = some conn) (asks : Asks c w command sent) (unasked : sent.sent = w.sent)
    (met : ∀ reply, reply.code = want →
      (f (.ok reply)).Follows (Step c) post (sent.hear command (.ok reply)))
    (failed : ∀ w' exit, Ended o conn w w' [] addrs exit → exit.rest = [] →
      (f (.error exit)).Follows (Step c) post w') :
    (expect o req addrs conn command want >>= f).Follows (Step c) post w := by
  have still : sent.conn = some conn := asks.conn.trans connected
  refine .bind (step_then connected asks (fun reply => ?_) fun err => ?_)
  · dsimp only
    split
    · rename_i wanted
      exact met reply wanted
    · refine quiet_then (observe_only _ _ _) fun _ => quiet_then (refused_only _ _ _ _) fun _ => ?_
      exact failed _ _ (.failAll (asks.onward.hear _ _) still unasked
        (failure_unanswered (beforeRCPT_not_verdict o reply))) rfl
  · exact failed _ _ (.failAll (asks.onward.staged _) still unasked
      (failure_unanswered (classifyNetErr_not_verdict err))) rfl

lemma negotiate_then {ehlo : Str} {f : Secured → Act B} (connected : w.conn = some conn)
    (hailed : w.stage = .ready .hailed) (plain : ∀ outcome, (f (.plain outcome)).Follows (Step c) post w)
    (upgraded : ∀ verified, (f (.upgraded verified)).Follows (Step c) post
      { w with conn := some { conn with tls := true }, stage := .ready .greeted })
    (failed : ∀ err, req.skipTLS = false → (f (.failed err)).Follows (Step c) post { w with stage := .stuck }) :
    (negotiate o req conn ehlo >>= f).Follows (Step c) post w := by
  refine .bind ?_
  unfold negotiate
  split
  · exact plain _
  · rename_i first
    have first : req.skipTLS = false := Bool.eq_false_iff.mpr first
    split
    · exact plain _
    · refine quiet_then (tlsBroken_only _ _) fun broken => ?_
      split
      · exact plain _
      · refine step_then connected (.command (.startTLS hailed)) (fun reply => ?_) fun err => failed err first
        dsimp only
        split
        · rename_i refusal
          have unmoved : w.hear (some .startTLS) (.ok reply) = w := by
            simp only [Watch.hear, heard, answersWith, if_neg refusal, ← hailed]
          rw [unmoved]
          exact plain _
        · rename_i accepted
          have upgrading : (w.hear (some .startTLS) (.ok reply)).stage = .upgrading := by
            simp only [Watch.hear, heard, if_pos (not_not.mp accepted)]
          refine .bind (.ask fun answer => ?_)
          match answer with
          | .ok verified => exact ⟨_, .upgraded connected upgrading, upgraded verified⟩
          | .error err => exact ⟨_, .spurned connected upgrading, failed err first⟩

lemma pay_then {f : Except Failure Unit → Act B} (fits : Fits c o req) (poised : Poised c o conn w done p)
    (granted : ∀ paid, (c.paced = true → paid = true) →
      (f (.ok ())).Follows (Step c) post { w with paid := paid })
    (denied : ∀ err, (f (.error err)).Follows (Step c) post w) : (pay o req p.asked >>= f).Follows (Step c) post w := by
  unfold pay
  split
  · exact acquire_then fits poised.inside granted denied
  · rename_i first
    exact granted w.paid (poised.unspent (Nat.eq_zero_of_not_pos first)).1

lemma Poised.book {addr : Str} {reply : Reply} (relay : Bool) (poised : Poised c o conn w done p)
    (onward : Onward w w') (connected : w'.conn = some conn) (heard : (addr, reply) ∈ w'.answers) :
    Poised c o conn w' (done ++ [addr]) (p.book addr (answerResult o reply relay)) where
  connected := connected
  inside := onward.inside.trans poised.inside
  backed := (poised.backed.mono onward.answers).insert (.answered heard rfl)
  keys := by
    intro other
    rw [Progress.book, Table.lookup_insert_ite, List.mem_append, List.mem_singleton]
    by_cases same : other = addr
    · simp [same]
    · simp [same, poised.keys]
  unspent := by
    intro unasked
    exact absurd unasked (Nat.succ_ne_zero p.asked)

lemma askOne_then {addr : Str} {more : List Str}
    (fits : Fits c o req) (poised : Poised c o conn w done p) (mailed : w.stage = .ready .mailed)
    (member : addr ∈ c.addrs)
    (booked : ∀ w' p', Poised c o conn w' (done ++ [addr]) p' → Onward w w' → w'.stage = .ready .mailed →
      w'.sent = w.sent ++ [addr] → w'.opened = w.opened → (f (.ok p')).Follows (Step c) post w')
    (ended : ∀ w' exit, Ended o conn w w' done (addr :: more) exit → (further = false → exit.rest = []) →
      (f (.error exit)).Follows (Step c) post w') :
    (askOne o req conn further addr more p >>= f).Follows (Step c) post w := by
  refine .bind (pay_then fits poised (fun paid granted => ?_) fun err => ?_)
  · let sent : Watch := { w with paid := false, sent := w.sent ++ [addr] }
    have sends : Sends c { w with paid := paid } (.rcpt addr) sent := .rcpt mailed granted member
    have leaves : Onward w sent := ⟨rfl, rfl, rfl, rfl, List.prefix_rfl⟩
    refine step_then (w := { w with paid := paid }) poised.connected (.command sends) (fun reply => ?_) fun err => ?_
    · -- The reply is in: a refusal of the domain, of relaying, of this client, or an answer.
      let after := sent.hear (some (.rcpt addr)) (.ok reply)
      have onward : Onward w after := leaves.hear _ reply
      have heard : (addr, reply) ∈ after.answers := List.mem_append_right _ (List.mem_singleton.mpr rfl)
      dsimp only
      split
      · rename_i refusal
        refine regroupFrom_then poised.connected nofun (ended _ _ ⟨onward.staged _, poised.connected,
          poised.backed.mono onward.answers, [], [addr], rfl, ?_, rfl, .inr ⟨addr, rfl, rfl⟩⟩ ?_)
        · intro other
          simpa using poised.keys other
        · rintro rfl
          simp at refusal
      · have ready (relay : Bool) := Poised.book relay poised onward poised.connected heard
        refine quiet_then (report_only _ _ _ _ _) fun _ => ?_
        split
        · rename_i relay
          refine regroupFrom_then poised.connected nofun (ended _ _ ⟨onward.staged _, poised.connected,
            (ready _).backed, [addr], [addr], rfl, ?_, rfl, .inl List.prefix_rfl⟩ ?_)
          · intro other
            rw [(ready _).keys, List.mem_append]
          · rintro rfl
            simp at relay
        · split
          · refine teardown_then poised.connected nofun (ended _ _ (.after [addr] onward rfl ?_) fun _ => rfl)
            exact .unattempted (ready _) (Onward.rfl.staged _) poised.connected
              (List.append_nil _).symm List.nil_prefix (stoppedFor_unanswered _)
          · exact booked _ _ (ready _) onward rfl rfl rfl
    · exact ended _ _ (.unattempted poised (leaves.staged _) poised.connected rfl
        (List.cons_prefix_cons.mpr ⟨rfl, List.nil_prefix⟩)
        (dropped_unanswered (classifyNetErr_not_verdict err))) fun _ => rfl
  · exact ended _ _ (.unattempted poised .rfl poised.connected (List.append_nil _).symm List.nil_prefix
      (dropped_unanswered (budgetClass_not_verdict err))) fun _ => rfl

lemma askAddrs_then {later : List Str} (fits : Fits c o req) (members : ∀ addr ∈ addrs, addr ∈ c.addrs)
    (poised : Poised c o conn w done p) (mailed : w.stage = .ready .mailed)
    (booked : ∀ w' p', Poised c o conn w' (done ++ addrs) p' → Onward w w' → w'.stage = .ready .mailed →
      w'.sent = w.sent ++ addrs → w'.opened = w.opened → (f (.ok p')).Follows (Step c) post w')
    (ended : ∀ w' exit, Ended o conn w w' done (addrs ++ later) exit → (further = false → exit.rest = []) →
      (f (.error exit)).Follows (Step c) post w') :
    (askAddrs o req conn further later addrs p >>= f).Follows (Step c) post w := by
  induction addrs generalizing w done p with
  | nil => exact booked w p (by rwa [List.append_nil]) .rfl mailed (List.append_nil _).symm rfl
  | cons addr more ih =>
    refine .bind (askOne_then fits poised mailed (members addr List.mem_cons_self) ?_ ?_)
    · intro mid p' poised' onward mailed' sent opened
      have rest := ih (w := mid) (p := p') (fun other member => members other (List.mem_cons_of_mem addr member)) poised' mailed'
      refine Prog.Follows.of_bind (rest ?_ ?_)
      · intro w' p'' poised'' onward' mailed'' sent' opened'
        refine booked w' p'' ?_ (onward.trans onward') mailed'' ?_ (opened'.trans opened)
        · rwa [List.append_assoc, List.singleton_append] at poised''
        · rw [sent', sent, List.append_assoc, List.singleton_append]
      · intro w' exit finished
        exact ended w' exit (.after [addr] onward sent finished)
    · intro w' exit finished unsplit
      exact ended w' exit finished unsplit

lemma reopen_then {command : Command} {f : Except Exit Unit → Act B}
    (poised : Poised c o conn w done p) (sends : Sends c w command sent) (unasked : sent.sent = w.sent)
    (reopened : ∀ reply, reply.code = 250 →
      (f (.ok ())).Follows (Step c) post (sent.hear (some command) (.ok reply)))
    (ended : ∀ w' exit, Ended o conn w w' done left exit → (f (.error exit)).Follows (Step c) post w') :
    (reopen o req conn p left command >>= f).Follows (Step c) post w := by
  have still : sent.conn = some conn := sends.conn.trans poised.connected
  have none : sent.sent = w.sent ++ [] := unasked.trans (List.append_nil _).symm
  refine .bind (step_then poised.connected (.command sends) (fun reply => ?_) fun err => ?_)
  · have onward := sends.onward.hear (some command) reply
    dsimp only
    split
    · rename_i wanted
      exact reopened reply wanted
    · split
      · refine quiet_then (observe_only _ _ _) fun _ => ended _ _ ?_
        exact .unattempted poised onward still none List.nil_prefix
          (failure_unanswered (beforeRCPT_not_verdict o reply))
      · refine regroupFrom_then still (heard_ne_leaving _ _) (ended _ _ ⟨onward.staged _, still,
          poised.backed.mono onward.answers, [], [], rfl, ?_, none, .inl List.nil_prefix⟩)
        intro other
        simpa using poised.keys other
  · exact ended _ _ (.unattempted poised (sends.onward.staged _) still none List.nil_prefix
      (dropped_unanswered (classifyNetErr_not_verdict err)))

lemma nextTransaction_then {f : Except Exit Unit → Act B} (fits : Fits c o req)
    (poised : Poised c o conn w done p) (standing : w.stage = .ready .mailed ∨ w.stage = .adrift)
    (another : w.opened < w.groups) (opened : ∀ w', Poised c o conn w' done p → Onward w w' → w'.stage = .ready .mailed →
      w'.sent = w.sent → w'.opened = w.opened + 1 → (f (.ok ())).Follows (Step c) post w')
    (ended : ∀ w' exit, Ended o conn w w' done left exit → (f (.error exit)).Follows (Step c) post w') :
    (nextTransaction o req conn p left >>= f).Follows (Step c) post w := by
  refine .bind (reopen_then poised (.rset standing another) rfl (fun reset clean => ?_) ended)
  let hailed := w.hear (some .rset) (.ok reset)
  have onward : Onward w hailed := Onward.rfl.hear _ _
  have standing' : hailed.stage = .ready .hailed := by simp only [hailed, Watch.hear, heard, if_pos clean]
  have poised' : Poised c o conn hailed done p := poised.moved onward poised.connected fun _ => rfl
  have mail : Sends c hailed (.mailFrom (req.mailFromFor o)) { hailed with opened := hailed.opened + 1 } := by
    rw [← fits.sender]
    exact .mailFrom standing'
  refine .of_bind (reopen_then poised' mail rfl (fun reply fine => ?_) ?_)
  · have onward' := (onward.trans mail.onward).hear (some (.mailFrom (req.mailFromFor o))) reply
    refine opened _ (poised.moved onward' poised.connected fun _ => rfl) onward' ?_ rfl rfl
    simp only [Watch.hear, heard, if_pos fine]
  · intro w' exit finished
    exact ended w' exit ⟨onward.trans finished.onward, finished.connected, finished.backed, finished.parted⟩

/-- The moment after a domain's bogus questions: nothing new about real addresses. -/
structure Lingers (conn : Conn) (w w' : Watch) : Prop where
  onward : Onward w w'
  connected : w'.conn = some conn
  sent : w'.sent = w.sent
  opened : w'.opened = w.opened
  stage : w'.stage = .ready .mailed ∨ w'.stage = .adrift

lemma askBogus_then {audit : Bool} {n accepted answered : Nat} {f : Nat × Nat → Act B}
    (fits : Fits c o req) (connected : w.conn = some conn) (inside : w.inside = true)
    (mailed : w.stage = .ready .mailed) (wanted : domain ∈ c.domains)
    (rest : ∀ w' counts, Lingers conn w w' → (f counts).Follows (Step c) post w') :
    (askBogus o req conn domain audit n accepted answered >>= f).Follows (Step c) post w := by
  induction n generalizing w accepted answered with
  | zero => exact rest w _ ⟨.rfl, connected, rfl, rfl, .inl mailed⟩
  | succ n ih =>
    have unmoved (paid : Bool) : Lingers conn w { w with paid := paid } :=
      ⟨⟨rfl, rfl, rfl, rfl, List.prefix_rfl⟩, connected, rfl, rfl, .inl mailed⟩
    refine .bind (bogusAddress_then (fun nonce => ?_) fun _ => rest _ _ (unmoved w.paid))
    refine acquire_then fits inside (fun paid granted => ?_) fun _ => rest _ _ (unmoved w.paid)
    have sends : Sends c { w with paid := paid } (.bogus (bogusFor nonce domain)) { w with paid := false } :=
      .bogus mailed granted wanted
    refine step_then (w := { w with paid := paid }) connected (.command sends) (fun reply => ?_) fun _ => ?_
    · have onward : Onward w (({ w with paid := false } : Watch).hear (some (.bogus (bogusFor nonce domain))) (.ok reply)) :=
        (unmoved false).onward.hear _ _
      have again : ∀ accepted answered, (askBogus o req conn domain audit n accepted answered).Follows (Step c)
          (fun counts w' => (f counts).Follows (Step c) post w')
          (({ w with paid := false } : Watch).hear (some (.bogus (bogusFor nonce domain))) (.ok reply)) :=
        fun accepted answered => .of_bind (ih connected inside rfl fun w' counts lingers =>
          rest w' counts ⟨onward.trans lingers.onward, lingers.connected, lingers.sent, lingers.opened,
            lingers.stage⟩)
      dsimp only
      split
      · exact again _ _
      · split
        · exact again _ _
        · exact rest _ _ ⟨onward, connected, rfl, rfl, .inl rfl⟩
    · exact rest _ _ ⟨(unmoved false).onward.staged _, connected, rfl, rfl, .inr rfl⟩

lemma askCatchAll_then {f : CatchAllVerdict → Act B} (fits : Fits c o req)
    (poised : Poised c o conn w done p) (mailed : w.stage = .ready .mailed) (wanted : domain ∈ c.domains)
    (rest : ∀ w' v, Lingers conn w w' → (p.asked = 0 → w'.paid = w.paid) → (f v).Follows (Step c) post w') :
    (askCatchAll o req conn domain addrs p.out >>= f).Follows (Step c) post w := by
  refine .bind ?_
  unfold askCatchAll
  split
  · rename_i accepted
    have spent : p.asked ≠ 0 := by
      intro unasked
      simp [(poised.unspent unasked).2] at accepted
    refine quiet_then (auditDrawn_only o) fun audit => ?_
    refine askBogus_then fits poised.connected poised.inside mailed wanted fun w' counts lingers => ?_
    exact quiet_then (countCatchAll_only _ _) fun _ => rest w' _ lingers fun unasked => absurd unasked spent
  · exact quiet_then (countCatchAll_only _ _) fun _ =>
      rest w _ ⟨.rfl, poised.connected, rfl, rfl, .inl mailed⟩ fun _ => rfl

lemma askGroup_then {later : List Str} {g : SessionGroup}
    (fits : Fits c o req) (members : ∀ addr ∈ g.addrs, addr ∈ c.addrs)
    (wanted : g.askCatchAll = true → g.domain ∈ c.domains)
    (poised : Poised c o conn w done p) (mailed : w.stage = .ready .mailed)
    (booked : ∀ w' p', Poised c o conn w' (done ++ g.addrs) p' → Onward w w' →
      w'.stage = .ready .mailed ∨ w'.stage = .adrift → w'.sent = w.sent ++ g.addrs →
      w'.opened = w.opened → (f (.ok p')).Follows (Step c) post w')
    (ended : ∀ w' exit, Ended o conn w w' done (g.addrs ++ later) exit → (further = false → exit.rest = []) →
      (f (.error exit)).Follows (Step c) post w') :
    (askGroup o req conn further later g p >>= f).Follows (Step c) post w := by
  refine .bind (askAddrs_then fits members poised mailed ?_ ended)
  intro mid p' poised' onward mailed' sent opened
  dsimp only
  split
  · rename_i asks
    refine askCatchAll_then fits poised' mailed' (wanted asks) fun w' v lingers paid => ?_
    have still := poised'.moved lingers.onward lingers.connected paid
    exact booked w' _ ⟨still.connected, still.inside, still.backed, still.keys, still.unspent⟩
      (onward.trans lingers.onward) lingers.stage (lingers.sent.trans sent) (lingers.opened.trans opened)
  · exact booked mid p' poised' onward (.inl mailed') sent opened

lemma Ended.all (poised : Poised c o conn w done p) :
    Ended o conn w { w with stage := .leaving } done [] { results := p.out, verdicts := p.verdicts } where
  onward := Onward.rfl.staged _
  connected := poised.connected
  backed := poised.backed
  parted := ⟨[], [], rfl, fun other => by simpa using poised.keys other, (List.append_nil _).symm,
    .inl List.nil_prefix⟩

lemma askGroups_further {groups : List SessionGroup} {grouped : Bool} (fits : Fits c o req)
    (members : ∀ g ∈ groups, ∀ addr ∈ g.addrs, addr ∈ c.addrs)
    (wanted : ∀ g ∈ groups, g.askCatchAll = true → g.domain ∈ c.domains)
    (poised : Poised c o conn w done p) (standing : w.stage = .ready .mailed ∨ w.stage = .adrift)
    (to_open : w.opened + groups.length = w.groups) :
    (askGroups o req conn grouped false groups p).Follows (Step c)
      (fun exit w' => Ended o conn w w' done (groups.flatMap SessionGroup.addrs) exit) w := by
  induction groups generalizing w done p with
  | nil =>
    have talking : w.stage ≠ .leaving := by
      rcases standing with mailed | adrift
      · rw [mailed]
        nofun
      · rw [adrift]
        nofun
    exact teardown_then poised.connected talking (.all poised)
  | cons g more ih =>
    rw [List.length_cons] at to_open
    refine nextTransaction_then fits poised standing (by omega) ?_ fun w' exit ended => ended
    intro mid poised' onward mailed sent opened
    refine askGroup_then fits (members g List.mem_cons_self) (wanted g List.mem_cons_self) poised' mailed ?_ ?_
    · intro last p' poised'' onward' standing' sent' opened'
      refine (ih (fun g' member => members g' (List.mem_cons_of_mem g member))
        (fun g' member => wanted g' (List.mem_cons_of_mem g member)) poised'' standing' ?_).mono ?_
      · rw [opened', opened, onward'.groups, onward.groups]
        omega
      · intro exit w' ended
        exact .after g.addrs (onward.trans onward') (sent'.trans (by rw [sent])) ended
    · intro w' exit ended _
      exact .after [] onward (sent.trans (List.append_nil _).symm) (by rwa [List.append_nil])

lemma askGroups_first {groups : List SessionGroup} {grouped : Bool} (fits : Fits c o req)
    (members : ∀ g ∈ groups, ∀ addr ∈ g.addrs, addr ∈ c.addrs)
    (wanted : ∀ g ∈ groups, g.askCatchAll = true → g.domain ∈ c.domains)
    (poised : Poised c o conn w [] p) (mailed : w.stage = .ready .mailed)
    (one : w.opened = 1) (count : w.groups = groups.length) :
    (askGroups o req conn grouped true groups p).Follows (Step c)
      (fun exit w' => Ended o conn w w' [] (groups.flatMap SessionGroup.addrs) exit ∧
        exit.rest <:+ groups.tail.flatMap SessionGroup.addrs) w := by
  cases groups with
  | nil => exact teardown_then poised.connected (by rw [mailed]; nofun) ⟨.all poised, List.nil_suffix⟩
  | cons g more =>
    refine .bind (askGroup_then fits (members g List.mem_cons_self) (wanted g List.mem_cons_self) poised mailed ?_ ?_)
    · intro mid p' poised' onward standing sent opened
      refine (askGroups_further fits (fun g' member => members g' (List.mem_cons_of_mem g member))
        (fun g' member => wanted g' (List.mem_cons_of_mem g member)) poised' standing ?_).mono ?_
      · rw [opened, one, onward.groups, count, List.length_cons, Nat.add_comm]
      · intro exit w' ended
        obtain ⟨front, -, same, -⟩ := ended.parted
        exact ⟨.after g.addrs onward sent ended, ⟨front, same.symm⟩⟩
    · intro w' exit ended unsplit
      refine ⟨ended, ?_⟩
      rw [unsplit (by simp)]
      exact List.nil_suffix

end Rules

end EmailVerifier.Prober
