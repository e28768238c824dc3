import EmailVerifier.Prober.SessionRules
import EmailVerifier.Prober.Surroundings

/-! Which throttle replies slow the sender down.

A bystander of one session writes down every throttle reply, by the command it
answers, and every time the pacer is told of one. A reply that is taken as a refusal
of grouping is not a throttle reply here. Answers to STARTTLS and to bogus recipients
are the ones the pacer never hears of.
-/

set_option autoImplicit false

namespace EmailVerifier.Prober
open Text Data Semantics

inductive Mark where
  /-- A throttle reply to a command; no command for the banner. -/
  | heard (command : Option Command)
  /-- `Observe(host, true)`. -/
  | slowed (host : Str)
  deriving DecidableEq, Repr

structure Listener extends Dialogue where
  marks : List Mark := []

/-- The reply to a further domain's recipient that is taken as a refusal of grouping. -/
def Listener.regroups (m : Listener) (reply : Reply) : Bool :=
  m.further && m.due.any isRcpt &&
    (relayRefusal reply.code reply.text || domainLimitRefusal reply.code reply.text)

def Listener.write (m : Listener) (command : Command) : Listener :=
  { m with toDialogue := m.asks command }

def Mark.of : Notice → List Mark
  | .observe host true => [.slowed host]
  | _ => []

def Overlooked : Option Command → Prop
  | some .startTLS | some (.bogus _) => True
  | _ => False

/-- Every throttle reply is followed by one call to slow down, and there are no others. -/
def Paired (host : Str) : List Mark → Prop
  | [] => True
  | .heard _ :: .slowed other :: more => other = host ∧ Paired host more
  | _ => False

section
variable [Unicode]

def Listener.throttled (o : Options) (m : Listener) (reply : Reply) : Bool :=
  (classifyAs reply.code reply.text o.identity).isThrottle && !m.regroups reply

def Listener.hear (o : Options) (m : Listener) (reply : Reply) : Listener :=
  if m.throttled o reply then { m with marks := m.marks ++ [.heard m.due] } else m

def Listener.next (o : Options) (m : Listener) : Event calls → Listener
  | ⟨.readReply _, .ok reply⟩ => m.hear o reply
  | ⟨.notify notice, _⟩ => { m with marks := m.marks ++ Mark.of notice }
  | e => { m with toDialogue := m.toDialogue.next e }

/-- The throttle replies of a session and the calls to slow down, in order. -/
def marksIn (o : Options) (tr : Trace calls) : List Mark := (tr.foldl (Listener.next o) {}).marks

end

def Unremarked : Op → Prop
  | .enter _ _ | .dialContext _ _ _ | .write _ _ | .readReply _ => False
  | .notify notice => Mark.of notice = []
  | _ => True

/-- The marks of a session that slows down for all but the overlooked answers. -/
inductive Kept (host : Str) : List Mark → Prop where
  | nil : Kept host []
  | slowed {command : Option Command} {marks : List Mark} : ¬ Overlooked command → Kept host marks →
      Kept host (.heard command :: .slowed host :: marks)
  | missed {command : Option Command} {marks : List Mark} : Overlooked command → Kept host marks →
      Kept host (.heard command :: marks)

variable {host : Str} {marks more : List Mark} {command : Option Command}

lemma Kept.append (kept : Kept host marks) (last : Kept host more) : Kept host (marks ++ more) := by
  induction kept with
  | nil => exact last
  | slowed noted _ ih => exact .slowed noted ih
  | missed overlooked _ ih => exact .missed overlooked ih

lemma Kept.not_paired (kept : Kept host marks) : ¬ Paired host (.heard command :: marks) := by
  cases kept <;> simp [Paired]

lemma Kept.paired_iff (kept : Kept host marks) :
    Paired host marks ↔ ∀ command, .heard command ∈ marks → ¬ Overlooked command := by
  induction kept with
  | nil => simp [Paired]
  | slowed noted _ ih => simp [Paired, ih, noted]
  | missed overlooked kept _ =>
    refine ⟨fun paired => absurd paired kept.not_paired, fun none => ?_⟩
    exact absurd overlooked (none _ List.mem_cons_self)

variable {o : Options} {req : Request} {A B : Type} {m : Listener} {grouped : Bool} {mails : Nat}
  {addrs : List Str}

structure Tuned (host : Str) (grouped : Bool) (mails : Nat) (m : Listener) : Prop where
  kept : Kept host m.marks
  grouped : m.grouped = grouped
  mails : m.mails = mails

lemma Tuned.asks (tuned : Tuned host grouped mails m) (command : Command) :
    Tuned host grouped (if isMailFrom command then mails + 1 else mails) (m.write command) :=
  ⟨tuned.kept, tuned.grouped, by rw [← tuned.mails]; rfl⟩

lemma fallBack_unremarked (host : Str) (reason : FallbackReason) (reply : Str) :
    (fallBack o host reason reply).Only Unremarked :=
  fallBack_uses (fun _ => trivial) (fun _ => trivial) (fun _ => rfl) fun _ => rfl

lemma acquire_unremarked : (acquire o req).Only Unremarked := acquire_uses trivial rfl

lemma pay_unremarked (asked : Nat) : (pay o req asked).Only Unremarked := by
  unfold pay
  split
  · exact acquire_unremarked
  · exact Prog.only_pure _

lemma leaseSession_unremarked : (leaseSession o req).Only Unremarked := by
  unfold leaseSession
  split
  · refine .bind ((Prog.only_ask _).mpr trivial) fun answer => ?_
    cases answer with
    | error err => exact Prog.only_pure _
    | ok _ => exact .bind (notify_uses _ rfl) fun _ => Prog.only_pure _
  · exact Prog.only_pure _

lemma releaseLease_unremarked (lease : Option Lease) : (releaseLease lease).Only Unremarked := by
  cases lease with
  | none => exact Prog.only_pure _
  | some lease => exact (Prog.only_ask _).mpr trivial

lemma vet_unremarked [Unicode] : (vet o req addrs).Only Unremarked := by
  have resolved : (resolveHost o req addrs).Only Unremarked := by
    refine .bind ((Prog.only_ask _).mpr trivial) fun answer => ?_
    cases answer <;> exact Prog.only_pure _
  have asked : (standDown o).Only Unremarked := by
    unfold standDown
    split
    · exact (Prog.only_ask _).mpr trivial
    · exact Prog.only_pure _
  refine .bind asked fun standing => ?_
  obtain ⟨stands, why⟩ := standing
  cases stands with
  | true => exact Prog.only_pure _
  | false => exact resolved

lemma stampTLS_unremarked {groups : List SessionGroup} {exit : Exit} (tls : Option TLSOutcome) :
    (stampTLS o groups exit tls).Only Unremarked := by
  cases tls with
  | none => exact Prog.only_pure _
  | some outcome =>
    exact .bind (notify_uses _ rfl) fun _ => .bind (notify_uses _ rfl) fun _ => Prog.only_pure _

lemma finish_unremarked (exit : Exit) : (finish exit).Only Unremarked :=
  .bind ((Prog.only_ask _).mpr trivial) fun _ => Prog.only_pure _

lemma observe_paced (host : Str) (cls : Class) (paced : o.paced = true) :
    observe o host cls = Prog.ask (I := calls) (.notify (.observe host cls.isThrottle)) := if_pos paced

section
variable [Unicode] {conn : Conn} {post : B → Listener → Prop} {left : List Str} {p : Progress}

lemma success_not_throttle {code : Int} {text : Str} {id : Identity} (success : 200 ≤ code ∧ code < 300) :
    (classifyAs code text id).isThrottle = false := by
  unfold classifyAs
  have inRange : ¬ (code < 200 ∨ code > 599) := by omega
  have not4 : ¬ (400 ≤ code ∧ code < 500) := by omega
  have not421 : code ≠ 421 := by omega
  have not503 : code ≠ 503 := by omega
  simp only [if_neg inRange, if_pos success, not421, not503, if_false]
  split
  · rfl
  · split
    · rfl
    · rfl

abbrev Listens (o : Options) : World calls Listener := World.noting (Listener.next o)

lemma unremarked_next {op : Op} {a : op.Answer} (none : Unremarked op) : m.next o ⟨op, a⟩ = m := by
  cases op with
  | notify notice =>
    have silent : Mark.of notice = [] := none
    simp [Listener.next, silent]
  | enter _ _ => cases none
  | dialContext _ _ _ => cases none
  | write _ _ => cases none
  | readReply _ => cases none
  | _ => rfl

lemma unremarked_then {q : Act A} {f : A → Act B} (none : q.Only Unremarked)
    (rest : ∀ a, (f a).Follows (Listens o) post m) : (q >>= f).Follows (Listens o) post m :=
  .bind (none.follows (fun _ _ silent => (unremarked_next silent).symm) rest)

variable {reply : Reply} {groups : List SessionGroup} {command : Command} {f : Unit → Act B} {want : Int}
  {further : Bool}

lemma step_heard {f : Except Failure Reply → Act B}
    (answered : ∀ reply, (f (.ok reply)).Follows (Listens o) post ((m.write command).hear o reply))
    (silent : ∀ err, (f (.error err)).Follows (Listens o) post (m.write command)) :
    (step conn (some command) >>= f).Follows (Listens o) post m := by
  refine .bind (.bind (.ask fun written => ⟨_, rfl, ?_⟩))
  cases written with
  | error err => exact silent err
  | ok _ =>
    refine .ask fun answer => ⟨_, rfl, ?_⟩
    cases answer with
    | error err => exact silent err
    | ok reply => exact answered reply

lemma banner_heard {f : Except Failure Reply → Act B}
    (answered : ∀ reply, (f (.ok reply)).Follows (Listens o) post (m.hear o reply))
    (silent : ∀ err, (f (.error err)).Follows (Listens o) post m) :
    (step conn none >>= f).Follows (Listens o) post m := by
  refine .bind (.ask fun answer => ⟨_, rfl, ?_⟩)
  cases answer with
  | error err => exact silent err
  | ok reply => exact answered reply

section
variable (tuned : Tuned host grouped mails m)
include tuned

lemma Tuned.unmoved (calm : m.throttled o reply = false) : Tuned host grouped mails (m.hear o reply) := by
  rwa [Listener.hear, if_neg (by simp [calm])]

lemma Tuned.overlook (overlooked : Overlooked m.due) : Tuned host grouped mails (m.hear o reply) := by
  unfold Listener.hear
  split
  · exact ⟨tuned.kept.append (.missed overlooked .nil), tuned.grouped, tuned.mails⟩
  · exact tuned

lemma observe_heard {cls : Class} (paced : o.paced = true) (noted : ¬ Overlooked m.due)
    (same : cls.isThrottle = m.throttled o reply)
    (rest : ∀ m', Tuned host grouped mails m' → (f ()).Follows (Listens o) post m') :
    (observe o host cls >>= f).Follows (Listens o) post (m.hear o reply) := by
  rw [observe_paced host cls paced, same, Listener.hear]
  cases m.throttled o reply with
  | true =>
    refine .bind (.ask fun _ => ⟨_, rfl, rest _ ⟨?_, tuned.grouped, tuned.mails⟩⟩)
    change Kept host ((m.marks ++ [.heard m.due]) ++ [.slowed host])
    rw [List.append_assoc]
    exact tuned.kept.append (.slowed noted .nil)
  | false =>
    refine .bind (.ask fun _ => ⟨_, rfl, rest _ ⟨?_, tuned.grouped, tuned.mails⟩⟩)
    change Kept host (m.marks ++ [])
    rw [List.append_nil]
    exact tuned.kept

lemma teardown_heard (rest : ∀ m', Tuned host grouped mails m' → (f ()).Follows (Listens o) post m') :
    (teardown conn >>= f).Follows (Listens o) post m := by
  refine .bind (.bind (.ask fun _ => ⟨_, rfl, ?_⟩))
  refine .bind (.ask fun _ => ⟨_, rfl, ?_⟩)
  exact .bind (.ask fun _ => ⟨_, rfl, rest _ ((tuned.asks .rset).asks .quit)⟩)

lemma regroupFrom_heard {reason : FallbackReason} {reply : Str} {f : Exit → Act B}
    (rest : ∀ exit m', Tuned host grouped mails m' → (f exit).Follows (Listens o) post m') :
    (regroupFrom o req conn p left reason reply >>= f).Follows (Listens o) post m :=
  .bind (unremarked_then (fallBack_unremarked _ _ _) fun _ => teardown_heard tuned fun m' tuned' =>
    rest _ m' tuned')

end

lemma Listener.throttled_other (other : m.due.any isRcpt = false) :
    m.throttled o reply = (classifyAs reply.code reply.text o.identity).isThrottle := by
  simp [Listener.throttled, Listener.regroups, other]

lemma expected {f : Except Exit Reply → Act B} (paced : o.paced = true)
    (success : 200 ≤ want ∧ want < 300) (tuned : Tuned req.mxHost grouped mails m)
    (noted : ¬ Overlooked m.due) (other : m.due.any isRcpt = false)
    (rest : ∀ answer m', Tuned req.mxHost grouped mails m' → (f answer).Follows (Listens o) post m') :
    ((if reply.code = want then pure (.ok reply)
      else do
        observe o req.mxHost (beforeRCPT o reply)
        refused o req.mxHost (beforeRCPT o reply) reply.text
        pure (.error (failAll addrs (failure o (beforeRCPT o reply) reply.code reply.text [])))) : Act (Except Exit Reply)).Follows
      (Listens o) (fun answer m' => (f answer).Follows (Listens o) post m') (m.hear o reply) := by
  split
  · rename_i wanted
    refine rest _ _ (tuned.unmoved ?_)
    rw [Listener.throttled_other other, wanted, success_not_throttle success]
  · refine observe_heard tuned paced noted ?_ fun m' tuned' => ?_
    · rw [beforeRCPT_isThrottle, Listener.throttled_other other]
    · exact unremarked_then (notify_uses _ rfl) fun _ => rest _ _ tuned'

lemma expect_heard {f : Except Exit Reply → Act B} (paced : o.paced = true)
    (success : 200 ≤ want ∧ want < 300) (tuned : Tuned req.mxHost grouped mails m)
    (noted : ¬ Overlooked (some command)) (other : isRcpt command = false)
    (rest : ∀ answer m', Tuned req.mxHost grouped (if isMailFrom command then mails + 1 else mails) m' →
      (f answer).Follows (Listens o) post m') :
    (expect o req addrs conn (some command) want >>= f).Follows (Listens o) post m := by
  refine .bind (step_heard (fun reply => ?_) fun err => ?_)
  · exact expected paced success (tuned.asks command) noted other rest
  · exact rest _ _ (tuned.asks command)

lemma greet_heard {f : Except Exit Reply → Act B} (paced : o.paced = true)
    (success : 200 ≤ want ∧ want < 300) (tuned : Tuned req.mxHost grouped mails m) (fresh : m.due = none)
    (rest : ∀ answer m', Tuned req.mxHost grouped mails m' → (f answer).Follows (Listens o) post m') :
    (expect o req addrs conn none want >>= f).Follows (Listens o) post m := by
  refine .bind (banner_heard (fun reply => ?_) fun err => ?_)
  · exact expected paced success tuned (by simp [fresh, Overlooked]) (by simp [fresh]) rest
  · exact rest _ _ tuned

lemma negotiate_heard {ehlo : Str} {f : Secured → Act B} (tuned : Tuned host grouped mails m)
    (rest : ∀ secured m', Tuned host grouped mails m' → (f secured).Follows (Listens o) post m') :
    (negotiate o req conn ehlo >>= f).Follows (Listens o) post m := by
  refine .bind ?_
  unfold negotiate
  split
  · exact rest _ _ tuned
  · split
    · exact rest _ _ tuned
    · refine unremarked_then (tlsBroken_uses trivial) fun broken => ?_
      split
      · exact rest _ _ tuned
      · refine step_heard (fun reply => ?_) fun err => rest _ _ (tuned.asks .startTLS)
        have missed : Tuned host grouped mails ((m.write .startTLS).hear o reply) :=
          (tuned.asks .startTLS).overlook trivial
        dsimp only
        split
        · exact rest _ _ missed
        · refine .bind (.ask fun answer => ⟨_, rfl, ?_⟩)
          cases answer <;> exact rest _ _ missed

section
variable (paced : o.paced = true)
include paced
variable (tuned : Tuned req.mxHost grouped mails m)
include tuned

lemma report_heard {r : Result} {relay : Bool} {text : Str} (noted : ¬ Overlooked m.due)
    (same : r.cls.isThrottle = m.throttled o reply)
    (rest : ∀ m', Tuned req.mxHost grouped mails m' → (f ()).Follows (Listens o) post m') :
    (report o req r relay text >>= f).Follows (Listens o) post (m.hear o reply) := by
  refine .bind (observe_heard tuned paced noted same fun m' tuned' => ?_)
  have told : (if r.cls = .policy && !relay then do
      refused o req.mxHost r.cls text
      notify o.health (.observePolicy req.mxHost)
    else pure () : Act Unit).Only Unremarked := by
    split
    · exact .bind (notify_uses _ rfl) fun _ => notify_uses _ rfl
    · exact Prog.only_pure _
  exact .of_bind (unremarked_then told fun _ => rest m' tuned')

lemma askOne_heard {addr : Str} {f : Except Exit Progress → Act B} (same : further = (grouped && decide (1 < mails)))
    (rest : ∀ answer m', Tuned req.mxHost grouped mails m' → (f answer).Follows (Listens o) post m') :
    (askOne o req conn further addr left p >>= f).Follows (Listens o) post m := by
  refine .bind (unremarked_then (pay_unremarked _) fun answer => ?_)
  cases answer with
  | error err => exact rest _ _ tuned
  | ok _ =>
    refine step_heard (fun reply => ?_) fun err => rest _ _ (tuned.asks (.rcpt addr))
    have asked : Tuned req.mxHost grouped mails (m.write (.rcpt addr)) := tuned.asks (.rcpt addr)
    have regroups : (m.write (.rcpt addr)).regroups reply = (further &&
        (relayRefusal reply.code reply.text || domainLimitRefusal reply.code reply.text)) := by
      rw [Listener.regroups, Dialogue.further, asked.grouped, asked.mails, same]
      simp [Listener.write, Dialogue.asks, isRcpt]
    dsimp only
    split
    · rename_i limit
      refine regroupFrom_heard (asked.unmoved ?_) fun exit m' tuned' => rest _ _ tuned'
      simp only [Bool.and_eq_true] at limit
      simp [Listener.throttled, regroups, limit]
    · rename_i answered
      have told : (answerResult o reply (further && relayRefusal reply.code reply.text)).cls.isThrottle =
          (m.write (.rcpt addr)).throttled o reply := by
        rw [Listener.throttled, regroups]
        cases further <;> cases relay : relayRefusal reply.code reply.text <;>
          simp_all [answerResult, rcptResult, Class.isThrottle]
      refine report_heard paced asked id told fun m' tuned' => ?_
      split
      · exact regroupFrom_heard tuned' fun exit m'' tuned'' => rest _ _ tuned''
      · split
        · exact teardown_heard tuned' fun m'' tuned'' => rest _ _ tuned''
        · exact rest _ _ tuned'

lemma askAddrs_heard {later : List Str} {f : Except Exit Progress → Act B}
    (same : further = (grouped && decide (1 < mails)))
    (rest : ∀ answer m', Tuned req.mxHost grouped mails m' → (f answer).Follows (Listens o) post m') :
    (askAddrs o req conn further later addrs p >>= f).Follows (Listens o) post m := by
  induction addrs generalizing m p with
  | nil => exact rest _ _ tuned
  | cons addr more ih =>
    refine .bind (askOne_heard paced tuned same fun answer m' tuned' => ?_)
    cases answer with
    | error exit => exact rest _ _ tuned'
    | ok booked => exact .of_bind (ih tuned')

lemma reopen_heard {f : Except Exit Unit → Act B} (noted : ¬ Overlooked (some command)) (other : isRcpt command = false)
    (rest : ∀ answer m', Tuned req.mxHost grouped (if isMailFrom command then mails + 1 else mails) m' →
      (f answer).Follows (Listens o) post m') : (reopen o req conn p left command >>= f).Follows (Listens o) post m := by
  have asked := tuned.asks command
  refine .bind (step_heard (fun reply => ?_) fun err => rest _ _ asked)
  have class_ : (m.write command).throttled o reply = (beforeRCPT o reply).isThrottle := by
    rw [Listener.throttled_other (by simpa [Listener.write, Dialogue.asks] using other), beforeRCPT_isThrottle]
  dsimp only
  split
  · rename_i opened
    refine rest _ _ (asked.unmoved ?_)
    rw [class_, beforeRCPT_isThrottle, opened, success_not_throttle (by omega)]
  · split
    · exact observe_heard asked paced noted class_.symm fun m' tuned' => rest _ _ tuned'
    · rename_i calm
      refine regroupFrom_heard (asked.unmoved ?_) fun exit m' tuned' => rest _ _ tuned'
      rw [class_]
      simpa using (not_or.mp calm).2

lemma nextTransaction_heard {f : Except Exit Unit → Act B}
    (opened : ∀ m', Tuned req.mxHost grouped (mails + 1) m' → (f (.ok ())).Follows (Listens o) post m')
    (ended : ∀ exit mails' m', Tuned req.mxHost grouped mails' m' → (f (.error exit)).Follows (Listens o) post m') :
    (nextTransaction o req conn p left >>= f).Follows (Listens o) post m := by
  refine .bind (reopen_heard paced tuned id rfl fun answer m' tuned' => ?_)
  cases answer with
  | error exit => exact ended exit _ _ tuned'
  | ok _ =>
    refine .of_bind (reopen_heard paced tuned' id rfl fun answer m'' tuned'' => ?_)
    cases answer with
    | error exit => exact ended exit _ _ tuned''
    | ok _ => exact opened _ tuned''

end

lemma askBogus_heard {domain : Str} {audit : Bool} {n accepted answered : Nat} {f : Nat × Nat → Act B}
    (tuned : Tuned host grouped mails m)
    (rest : ∀ counts m', Tuned host grouped mails m' → (f counts).Follows (Listens o) post m') :
    (askBogus o req conn domain audit n accepted answered >>= f).Follows (Listens o) post m := by
  induction n generalizing m accepted answered with
  | zero => exact rest _ _ tuned
  | succ n ih =>
    refine .bind (unremarked_then (bogusAddress_uses trivial) fun drawn => ?_)
    cases drawn with
    | error err => exact rest _ _ tuned
    | ok bogus =>
      refine unremarked_then acquire_unremarked fun granted => ?_
      cases granted with
      | error err => exact rest _ _ tuned
      | ok _ =>
        have asked : Tuned host grouped mails (m.write (.bogus bogus)) := tuned.asks (.bogus bogus)
        refine step_heard (fun reply => ?_) fun err => rest _ _ asked
        have missed : Tuned host grouped mails ((m.write (.bogus bogus)).hear o reply) := asked.overlook trivial
        dsimp only
        split
        · exact .of_bind (ih missed)
        · split
          · exact .of_bind (ih missed)
          · exact rest _ _ missed

lemma askCatchAll_heard {domain : Str} {out : Results} {f : CatchAllVerdict → Act B} (tuned : Tuned host grouped mails m)
    (rest : ∀ v m', Tuned host grouped mails m' → (f v).Follows (Listens o) post m') :
    (askCatchAll o req conn domain addrs out >>= f).Follows (Listens o) post m := by
  refine .bind ?_
  unfold askCatchAll
  split
  · refine unremarked_then (auditDrawn_uses trivial) fun audit => ?_
    refine askBogus_heard tuned fun counts m' tuned' => ?_
    exact unremarked_then (notify_uses _ rfl) fun _ => rest _ _ tuned'
  · exact unremarked_then (notify_uses _ rfl) fun _ => rest _ _ tuned

section
variable (paced : o.paced = true)
include paced

lemma askGroup_heard {later : List Str} {g : SessionGroup} {f : Except Exit Progress → Act B} (tuned : Tuned req.mxHost grouped mails m)
    (same : further = (grouped && decide (1 < mails)))
    (rest : ∀ answer m', Tuned req.mxHost grouped mails m' → (f answer).Follows (Listens o) post m') :
    (askGroup o req conn further later g p >>= f).Follows (Listens o) post m := by
  refine .bind (askAddrs_heard paced tuned same fun answer m' tuned' => ?_)
  cases answer with
  | error exit => exact rest _ _ tuned'
  | ok booked =>
    dsimp only
    split
    · exact askCatchAll_heard tuned' fun v m'' tuned'' => rest _ _ tuned''
    · exact rest _ _ tuned'

lemma askGroups_heard_further (tuned : Tuned req.mxHost grouped mails m) (some : 1 ≤ mails) :
    (askGroups o req conn grouped false groups p).Follows (Listens o) (fun _ m' => Kept req.mxHost m'.marks) m := by
  induction groups generalizing m p mails with
  | nil => exact teardown_heard tuned fun m' tuned' => tuned'.kept
  | cons g more ih =>
    refine nextTransaction_heard paced tuned (fun m' tuned' => ?_) fun exit mails' m' tuned' => tuned'.kept
    refine askGroup_heard paced tuned' ?_ fun answer m'' tuned'' => ?_
    · rw [decide_eq_true (by omega), Bool.not_false]
    · cases answer with
      | error exit => exact tuned''.kept
      | ok booked => exact ih tuned'' (by omega)

lemma askGroups_heard (tuned : Tuned req.mxHost grouped 1 m) :
    (askGroups o req conn grouped true groups p).Follows (Listens o) (fun _ m' => Kept req.mxHost m'.marks) m := by
  cases groups with
  | nil => exact teardown_heard tuned fun m' tuned' => tuned'.kept
  | cons g more =>
    refine .bind (askGroup_heard paced tuned (by simp) fun answer m' tuned' => ?_)
    cases answer with
    | error exit => exact tuned'.kept
    | ok booked => exact askGroups_heard_further paced tuned' (by omega)

lemma transact_heard (tuned : Tuned req.mxHost grouped 0 m) :
    (transact o req groups grouped conn).Follows (Listens o) (fun _ m' => Kept req.mxHost m'.marks) m := by
  refine expect_heard paced (by omega) tuned id rfl fun answer m' tuned' => ?_
  cases answer with
  | error exit => exact tuned'.kept
  | ok _ => exact askGroups_heard paced tuned'

lemma converse_heard (tuned : Tuned req.mxHost grouped 0 m) (fresh : m.due = none) :
    (converse o req groups grouped conn).Follows (Listens o) (fun _ m' => Kept req.mxHost m'.marks) m := by
  refine greet_heard paced (by omega) tuned fresh fun banner m₁ tuned₁ => ?_
  cases banner with
  | error exit => exact tuned₁.kept
  | ok _ =>
    refine expect_heard paced (by omega) tuned₁ id rfl fun ehlo m₂ tuned₂ => ?_
    cases ehlo with
    | error exit => exact tuned₂.kept
    | ok ehlo =>
      refine negotiate_heard tuned₂ fun secured m₃ tuned₃ => ?_
      cases secured with
      | failed err => exact tuned₃.kept
      | plain outcome => exact (transact_heard paced tuned₃).andThen fun _ _ kept => kept
      | upgraded verified =>
        refine expect_heard paced (by omega) tuned₃ id rfl fun again m₄ tuned₄ => ?_
        cases again with
        | error exit => exact tuned₄.kept
        | ok _ => exact (transact_heard paced tuned₄).andThen fun _ _ kept => kept

end

lemma dialAny_heard {ips : List Addr} {lastErr : Failure} {f : Except Failure Conn → Act B}
    (tuned : Tuned host grouped 0 m) (fresh : m.due = none)
    (rest : ∀ answer m', Tuned host grouped 0 m' → m'.due = none → (f answer).Follows (Listens o) post m') :
    (dialAny o ips lastErr >>= f).Follows (Listens o) post m := by
  induction ips generalizing m lastErr with
  | nil => exact rest _ _ tuned fresh
  | cons a more ih =>
    refine .bind (.bind (.ask fun answer => ⟨_, rfl, ?_⟩))
    cases answer with
    | ok socket => exact rest _ _ ⟨tuned.kept, tuned.grouped, rfl⟩ rfl
    | error err => exact .of_bind (ih ⟨tuned.kept, tuned.grouped, rfl⟩ rfl)

lemma connect_heard {ips : List Addr} {f : Except Exit Conn → Act B} (tuned : Tuned host grouped 0 m)
    (fresh : m.due = none)
    (rest : ∀ answer m', Tuned host grouped 0 m' → m'.due = none → (f answer).Follows (Listens o) post m') :
    (connect o req addrs ips >>= f).Follows (Listens o) post m := by
  refine .bind (unremarked_then acquire_unremarked fun granted => ?_)
  cases granted with
  | error err => exact rest _ _ tuned fresh
  | ok _ =>
    refine dialAny_heard tuned fresh fun answer m' tuned' fresh' => ?_
    cases answer with
    | error err => exact rest _ _ tuned' fresh'
    | ok conn => exact .bind (.ask fun _ => ⟨_, rfl, rest _ _ tuned' fresh'⟩)

lemma unremarked_ends {q : Act A} (none : q.Only Unremarked) (kept : Kept host m.marks) :
    q.Follows (Listens o) (fun _ m' => Kept host m'.marks) m :=
  none.follows (fun _ _ silent => (unremarked_next silent).symm) fun _ => kept

lemma sessionBody_heard (req : Request) {again : Request → Act Exit} (paced : o.paced = true)
    (kept : Kept req.mxHost m.marks)
    (rerun : ∀ m', Kept req.mxHost m'.marks → (again { req with skipTLS := true }).Follows (Listens o)
      (fun _ m'' => Kept req.mxHost m''.marks) m') :
    (sessionBody o again req groups grouped).Follows (Listens o) (fun _ m' => Kept req.mxHost m'.marks) m := by
  refine .bind (.ask fun _ => ⟨_, rfl, ?_⟩)
  have entered : Tuned req.mxHost grouped 0 ({ grouped := grouped, marks := m.marks } : Listener) := ⟨kept, rfl, rfl⟩
  refine unremarked_then vet_unremarked fun vetted => ?_
  cases vetted with
  | error exit => exact unremarked_ends (finish_unremarked _) kept
  | ok ips =>
    refine unremarked_then leaseSession_unremarked fun leased => ?_
    cases leased with
    | error err => exact unremarked_ends (finish_unremarked _) kept
    | ok lease =>
      refine connect_heard entered rfl fun connected m₁ tuned₁ fresh₁ => ?_
      cases connected with
      | error exit =>
        exact unremarked_then (releaseLease_unremarked lease) fun _ => unremarked_ends (finish_unremarked _) tuned₁.kept
      | ok conn =>
        refine (converse_heard paced tuned₁ fresh₁).andThen fun talk m₂ kept₂ => ?_
        cases talk with
        | ended last tls exit =>
          refine unremarked_ends ?_ kept₂
          refine .bind ((Prog.only_ask _).mpr trivial) fun _ => .bind (releaseLease_unremarked lease) fun _ => ?_
          exact .bind (stampTLS_unremarked tls) fun _ => finish_unremarked _
        | rerun upErr =>
          refine unremarked_then (markTLSBroken_uses trivial) fun _ => ?_
          refine .bind (.ask fun _ => ⟨_, rfl, ?_⟩)
          refine unremarked_then (releaseLease_unremarked lease) fun _ => ?_
          refine .bind (.ask fun _ => ⟨_, rfl, ?_⟩)
          refine (rerun m₂ kept₂).andThen fun exit m₃ kept₃ => ?_
          refine unremarked_ends ?_ kept₃
          exact .bind (notify_uses _ rfl) fun _ => .bind ((Prog.only_ask _).mpr trivial) fun _ => Prog.only_pure _

/-- A session slows down for every throttle reply but the overlooked ones. -/
lemma session_heard (paced : o.paced = true) (kept : Kept req.mxHost m.marks) :
    (session o req groups grouped).Follows (Listens o) (fun _ m' => Kept req.mxHost m'.marks) m := by
  refine sessionBody_heard req paced kept fun m' kept' => ?_
  exact sessionBody_heard { req with skipTLS := true } paced kept' fun m'' kept'' => kept''

/-- In every session with a pacer, and whatever the server says: each throttle reply
slows the sender down once, and nothing else does, exactly when no throttle reply
answers STARTTLS or a bogus recipient. -/
theorem throttles_observed_iff {S : Type} {W : World calls S} {s t : S} {groups : List SessionGroup}
    {tr : Trace calls} {exit : Exit} (wired : o.pacer ≠ .none)
    (run : Runs W (session o req groups grouped) s tr (.done exit) t) :
    Paired req.mxHost (marksIn o tr) ↔
      ∀ command, .heard command ∈ marksIn o tr → ¬ Overlooked command := by
  have heard : (session o req groups grouped).Follows (Listens o) (fun _ m' => Kept req.mxHost m'.marks) {} :=
    session_heard (decide_eq_true wired) .nil
  obtain ⟨m, path, kept⟩ := heard.path run
  have kept : Kept req.mxHost m.marks := kept
  rw [path.noted] at kept
  exact kept.paired_iff

end

def busy : Reply where
  code := 421
  text := lit "421 4.7.0 too many connections, slow down"

lemma busy_formed : busy.Formed := ⟨lit "421 4.7.0 too many connections, slow down\r\n", [], by decide +kernel⟩

def oneGroup : SessionGroup where
  domain := lit "b"
  addrs := [lit "a@b"]
  askCatchAll := true

/-- A server too busy for a greeting, which slows us down. -/
theorem busy_greeting_observed : ∃ tr exit,
    Runs anyone (session { pacer := .pacing } oneAddress [oneGroup] false) () tr (.done exit) () ∧
    marksIn { pacer := .pacing } tr = [.heard none, .slowed (lit "mx")] ∧
    Paired (lit "mx") (marksIn { pacer := .pacing } tr) := by
  have run := play_anyone (replying_readable fun _ => busy_formed)
    (session { pacer := .pacing } oneAddress [oneGroup] false) []
  have marks : marksIn { pacer := .pacing }
      ((session { pacer := .pacing } oneAddress [oneGroup] false).play (replying fun _ => busy) []).1 =
        [.heard none, .slowed (lit "mx")] := by
    decide +kernel
  refine ⟨_, _, run, marks, (throttles_observed_iff (by decide) run).mpr ?_⟩
  rw [marks]
  rintro command member
  have banner : command = none := by simpa using member
  rw [banner]
  exact id

def wearied : List Command → Reply
  | [] => greeting
  | sent => match sent.getLast? with
    | some (.bogus _) => busy
    | _ => welcome

lemma wearied_formed (sent : List Command) : (wearied sent).Formed := by
  unfold wearied
  split
  · exact greeting_formed
  · split
    · exact busy_formed
    · exact welcome_formed

/-- The answer to a bogus recipient is a throttle reply nobody slows down for. -/
theorem bogus_throttle_missed : ∃ tr exit,
    Runs anyone (session { pacer := .pacing } oneAddress [oneGroup] false) () tr (.done exit) () ∧
    (∃ addr, marksIn { pacer := .pacing } tr = [.heard (some (.bogus addr))]) ∧
    ¬ Paired (lit "mx") (marksIn { pacer := .pacing } tr) := by
  have run := play_anyone (replying_readable wearied_formed)
    (session { pacer := .pacing } oneAddress [oneGroup] false) []
  have marks : marksIn { pacer := .pacing }
      ((session { pacer := .pacing } oneAddress [oneGroup] false).play (replying wearied) []).1 =
        [.heard (some (.bogus (bogusFor ⟨List.replicate 12 0, rfl⟩ (lit "b"))))] := by
    decide +kernel
  refine ⟨_, _, run, ⟨_, marks⟩, ?_⟩
  rw [marks]
  simp [Paired]

end EmailVerifier.Prober
