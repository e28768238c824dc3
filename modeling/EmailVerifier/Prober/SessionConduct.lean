import EmailVerifier.Prober.SessionRules

/-! A session keeps to the protocol from its first gate to its last deferred call,
the plaintext rerun included. What it hands back is backed by what it read, covers
its addresses, and leaves nothing held.
-/

set_option autoImplicit false

namespace EmailVerifier.Prober
open Text Data Semantics

variable {c : Scope} {o : Options} {req : Request} {B : Type} {w w' : Watch} {conn : Conn}
  {post : B → Watch → Prop} {addrs : List Str} {groups : List SessionGroup}

lemma leaseSession_then {f : Except Failure (Option Lease) → Act B} (fits : Fits c o req)
    (inside : w.inside = true) (unleased : w.lease = none) (alone : w.conn = none)
    (granted : ∀ lease, (c.leasing = true → lease.isSome) →
      (f (.ok lease)).Follows (Step c) post { w with lease := lease })
    (denied : ∀ err, (f (.error err)).Follows (Step c) post w) : (leaseSession o req >>= f).Follows (Step c) post w := by
  refine .bind ?_
  unfold leaseSession
  split
  · refine .bind (.ask fun answer => ?_)
    rw [← fits.host]
    match answer with
    | .ok lease =>
      exact ⟨_, .leased inside unleased alone, quiet_then (notify_only _ _) fun _ => granted (some lease) fun _ => rfl⟩
    | .error err => exact ⟨_, .unleased inside unleased alone, denied err⟩
  · rename_i unwired
    have same : ({ w with lease := none } : Watch) = w := by rw [← unleased]
    have rest := granted none fun leasing => absurd (fits.leasing.symm.trans leasing) unwired
    rwa [same] at rest

lemma releaseLease_then {f : Unit → Act B} {lease : Option Lease} (held : w.lease = lease)
    (alone : w.conn = none) (rest : (f ()).Follows (Step c) post { w with lease := none }) :
    (releaseLease lease >>= f).Follows (Step c) post w := by
  cases lease with
  | none =>
    have same : ({ w with lease := none } : Watch) = w := by rw [← held]
    rwa [same] at rest
  | some lease => exact .bind (.ask fun _ => ⟨_, .release held alone, rest⟩)

lemma dialAny_then {f : Except Failure Conn → Act B} {ips : List Addr} {lastErr : Failure}
    (may : ∀ a ∈ ips, MayDial c w (joinHostPort a.string o.portOr))
    (dialled : ∀ socket, (f (.ok { socket := socket })).Follows (Step c) post
      { w with conn := some { socket := socket }, timed := false, stage := .awaiting none })
    (undialled : ∀ err, (f (.error err)).Follows (Step c) post w) :
    (dialAny o ips lastErr >>= f).Follows (Step c) post w := by
  induction ips generalizing lastErr with
  | nil => exact undialled lastErr
  | cons a more ih =>
    have first := may a List.mem_cons_self
    refine .bind (.bind (.ask fun answer => ?_))
    match answer with
    | .ok socket => exact ⟨_, .dialled first, dialled socket⟩
    | .error err =>
      exact ⟨_, .undialled first, .of_bind (ih fun a' member => may a' (List.mem_cons_of_mem a member))⟩

section
variable [Unicode]

lemma resolveHost_then {f : Except Exit (List Addr) → Act B} (fits : Fits c o req) (inside : w.inside = true)
    (found : ∀ ips, (f (.ok ips)).Follows (Step c) post { w with ips := some ips })
    (failed : ∀ r, Unanswered r → (f (.error (failAll addrs r))).Follows (Step c) post { w with ips := none }) :
    (resolveHost o req addrs >>= f).Follows (Step c) post w := by
  refine .bind (.bind (.ask fun answer => ?_))
  rw [← fits.host]
  refine ⟨_, .resolve inside, ?_⟩
  match answer with
  | .ok ips => exact found ips
  | .error err =>
    refine failed _ (failure_unanswered ?_)
    split
    · simp [Class.IsVerdict]
    · exact classifyNetErr_not_verdict err

lemma vet_then {f : Except Exit (List Addr) → Act B} (fits : Fits c o req) (inside : w.inside = true)
    (vetted : ∀ ips cleared, (c.health = true → cleared = true) →
      (f (.ok ips)).Follows (Step c) post { w with cleared := cleared, ips := some ips })
    (failed : ∀ r cleared ips, Unanswered r →
      (f (.error (failAll addrs r))).Follows (Step c) post { w with cleared := cleared, ips := ips }) :
    (vet o req addrs >>= f).Follows (Step c) post w := by
  have resolved (cleared : Bool) (fine : c.health = true → cleared = true) :
      (resolveHost o req addrs).Follows (Step c) (fun a w' => (f a).Follows (Step c) post w')
        { w with cleared := cleared } :=
    .of_bind (resolveHost_then fits inside (fun ips => vetted ips cleared fine)
      fun r none => failed r cleared Option.none none)
  refine .bind (.bind ?_)
  unfold standDown
  split
  · refine .ask fun ⟨yes, why⟩ => ⟨_, .burned inside, ?_⟩
    cases yes with
    | true => exact failed _ _ w.ips (failure_unanswered (by simp [Class.IsVerdict]))
    | false => exact resolved true fun _ => rfl
  · rename_i unwired
    exact resolved w.cleared fun health => absurd (fits.health.symm.trans health) unwired

lemma connect_then {ips : List Addr} {f : Except Exit Conn → Act B} (fits : Fits c o req)
    (inside : w.inside = true) (alone : w.conn = none) (cleared : c.health = true → w.cleared = true)
    (vetted : w.ips = some ips) (leased : c.leasing = true → w.lease.isSome)
    (connected : ∀ socket paid, (c.paced = true → paid = true) →
      (f (.ok { socket := socket })).Follows (Step c) post
        { w with paid := paid, conn := some { socket := socket }, timed := true, stage := .awaiting none })
    (failed : ∀ r paid, Unanswered r →
      (f (.error (failAll addrs r))).Follows (Step c) post { w with paid := paid }) :
    (connect o req addrs ips >>= f).Follows (Step c) post w := by
  refine .bind (acquire_then fits inside (fun paid granted => ?_) fun err =>
    failed _ w.paid (budgetFailure_unanswered err))
  refine dialAny_then (w := { w with paid := paid }) ?_ (fun socket => ?_) fun err =>
    failed _ paid (failure_unanswered (classifyNetErr_not_verdict err))
  · intro a member
    exact ⟨inside, alone, cleared, ⟨ips, a, vetted, member, by rw [fits.port]⟩, leased, granted⟩
  · rw [← fits.timeout]
    exact .bind (.ask fun _ => ⟨_, .deadline rfl rfl rfl, connected socket paid granted⟩)

structure Handed (o : Options) (groups : List SessionGroup) (conn : Conn) (w w' : Watch) (exit : Exit) :
    Prop where
  ended : Ended o conn w w' [] (groups.flatMap SessionGroup.addrs) exit
  /-- Nothing of the first group is handed back. -/
  within : exit.rest <:+ groups.tail.flatMap SessionGroup.addrs

def Talked (o : Options) (req : Request) (groups : List SessionGroup) (conn : Conn) (w : Watch) :
    Talk → Watch → Prop
  | .ended last _ exit, w' => Handed o groups last w w' exit
  | .rerun _, w' => req.skipTLS = false ∧ Onward w w' ∧ w'.conn = some conn ∧ w'.sent = w.sent

variable {mid : Watch} {exit : Exit} {grouped : Bool}

lemma Handed.from (handed : Handed o groups conn mid w' exit)
    (onward : Onward w mid) (sent : mid.sent = w.sent) : Handed o groups conn w w' exit :=
  ⟨.after [] onward (sent.trans (List.append_nil _).symm) handed.ended, handed.within⟩

lemma transact_follows (fits : Fits c o req) (may : MayEnter c groups)
    (connected : w.conn = some conn) (inside : w.inside = true) (hailed : w.stage = .ready .hailed)
    (unopened : w.opened = 0) (count : w.groups = groups.length) (paid : c.paced = true → w.paid = true) :
    (transact o req groups grouped conn).Follows (Step c) (fun exit w' => Handed o groups conn w w' exit) w := by
  have mail : Sends c w (.mailFrom (req.mailFromFor o)) { w with opened := w.opened + 1 } := by
    rw [← fits.sender]
    exact .mailFrom hailed
  refine expect_then connected (.command mail) rfl (fun reply fine => ?_) ?_
  · have onward := mail.onward.hear (some (.mailFrom (req.mailFromFor o))) reply
    refine (askGroups_first fits may.asked may.wanted ?_ ?_ ?_ ?_).mono ?_
    · exact ⟨connected, inside, .empty, fun addr => by simp, fun _ => ⟨paid, rfl⟩⟩
    · simp only [Watch.hear, heard, if_pos fine]
    · change w.opened + 1 = 1
      rw [unopened]
    · exact count
    · rintro exit w' ⟨ended, within⟩
      exact Handed.from ⟨ended, within⟩ onward rfl
  · intro w' exit ended unsplit
    exact ⟨ended, unsplit ▸ List.nil_suffix⟩

lemma hail_then {f : Except Exit Reply → Act B} (fits : Fits c o req) (connected : w.conn = some conn)
    (greeted : w.stage = .ready .greeted)
    (met : ∀ reply, (f (.ok reply)).Follows (Step c) post { w with stage := .ready .hailed })
    (failed : ∀ w' exit, Handed o groups conn w w' exit → (f (.error exit)).Follows (Step c) post w') :
    (expect o req (groups.flatMap SessionGroup.addrs) conn (some (.ehlo (req.heloFor o))) 250 >>= f).Follows
      (Step c) post w := by
  have ehlo : Sends c w (.ehlo (req.heloFor o)) w := by
    rw [← fits.helo]
    exact .ehlo greeted
  refine expect_then connected (.command ehlo) rfl (fun reply fine => ?_) fun w' exit ended unsplit =>
    failed w' exit ⟨ended, unsplit ▸ List.nil_suffix⟩
  have hailed : w.hear (some (.ehlo (req.heloFor o))) (.ok reply) = { w with stage := .ready .hailed } := by
    simp only [Watch.hear, heard, answersWith, if_pos fine]
  rw [hailed]
  exact met reply

lemma converse_follows (fits : Fits c o req) (may : MayEnter c groups)
    (connected : w.conn = some conn) (inside : w.inside = true) (due : w.stage = .awaiting none)
    (unopened : w.opened = 0) (count : w.groups = groups.length) (paid : c.paced = true → w.paid = true) :
    (converse o req groups grouped conn).Follows (Step c) (Talked o req groups conn w) w := by
  have staged (stage : Stage) : Onward w { w with stage := stage } := Onward.rfl.staged stage
  refine expect_then connected (.banner due) rfl (fun banner fine => ?_) fun w' exit ended unsplit =>
    ⟨ended, unsplit ▸ List.nil_suffix⟩
  have greeted : w.hear none (.ok banner) = { w with stage := .ready .greeted } := by
    simp only [Watch.hear, heard, answersWith, if_pos fine]
  rw [greeted]
  refine hail_then (w := { w with stage := .ready .greeted }) fits connected rfl (fun ehlo => ?_)
    fun w' exit handed => handed.from (staged _) rfl
  refine negotiate_then (w := { w with stage := .ready .hailed }) connected rfl (fun outcome => ?_)
    (fun verified => ?_) fun err first => ⟨first, staged _, connected, rfl⟩
  · exact (transact_follows (w := { w with stage := .ready .hailed }) fits may connected inside rfl unopened
      count paid).andThen fun exit w' handed => handed.from (staged _) rfl
  · let secure : Conn := { conn with tls := true }
    have upgraded (stage : Stage) : Onward w { w with conn := some secure, stage := stage } :=
      ⟨rfl, rfl, rfl, rfl, List.prefix_rfl⟩
    refine hail_then (w := { w with conn := some secure, stage := .ready .greeted }) fits rfl rfl (fun _ => ?_)
      fun w' exit handed => handed.from (upgraded _) rfl
    exact (transact_follows (w := { w with conn := some secure, stage := .ready .hailed }) fits may rfl inside
      rfl unopened count paid).andThen fun exit w' handed => handed.from (upgraded _) rfl

structure Returned (o : Options) (groups : List SessionGroup) (w w' : Watch) (exit : Exit) : Prop where
  idle : w'.Idle
  answers : w.answers <+: w'.answers
  refusals : w'.refusals = if exit.rest = [] then w.refusals else w.refusals + 1
  backed : AllBacked o w'.answers exit.results
  parted : Parted w w' [] (groups.flatMap SessionGroup.addrs) exit
  within : exit.rest <:+ groups.tail.flatMap SessionGroup.addrs

structure Closing (o : Options) (groups : List SessionGroup) (w mid : Watch) (exit : Exit) : Prop where
  inside : mid.inside = true
  alone : mid.conn = none
  shut : mid.stage = .shut
  answers : w.answers <+: mid.answers
  refusals : mid.refusals = w.refusals
  backed : AllBacked o mid.answers exit.results
  parted : Parted w mid [] (groups.flatMap SessionGroup.addrs) exit
  within : exit.rest <:+ groups.tail.flatMap SessionGroup.addrs

lemma finish_follows (closing : Closing o groups w mid exit) (unleased : mid.lease = none) :
    (finish exit).Follows (Step c) (fun exit w' => Returned o groups w w' exit) mid := by
  refine .bind (.ask fun _ => ⟨_, .leave closing.inside unleased closing.alone closing.shut, ?_⟩)
  refine ⟨⟨rfl, unleased, closing.alone, closing.shut⟩, closing.answers, ?_, closing.backed,
    closing.parted, closing.within⟩
  rw [← closing.refusals]

lemma Closing.failAll {r : Result} (inside : mid.inside = true) (alone : mid.conn = none)
    (shut : mid.stage = .shut) (answers : mid.answers = w.answers) (refusals : mid.refusals = w.refusals)
    (sent : mid.sent = w.sent) (none : Unanswered r) :
    Closing o groups w mid (failAll (groups.flatMap SessionGroup.addrs) r) where
  inside := inside
  alone := alone
  shut := shut
  answers := answers ▸ List.prefix_rfl
  refusals := refusals
  backed := AllBacked.empty.setAll none
  parted := .failAll sent
  within := List.nil_suffix

lemma stampTLS_then {tls : Option TLSOutcome} {f : Exit → Act B} (closing : Closing o groups w w' exit)
    (rest : ∀ stamped, Closing o groups w w' stamped → (f stamped).Follows (Step c) post w') :
    (stampTLS o groups exit tls >>= f).Follows (Step c) post w' := by
  refine .bind ?_
  cases tls with
  | none => exact rest exit closing
  | some outcome =>
    refine quiet_then (notify_only _ _) fun _ => quiet_then (notify_only _ _) fun _ => rest _ ?_
    exact { closing with
      backed := closing.backed.mapVals fun addr r backed => backed.stamped rfl
      parted := closing.parted.mapVals _ }

lemma Returned.afterRerun {upErr : Failure}
    (returned : Returned o groups mid w' exit) (answers : w.answers <+: mid.answers)
    (refusals : mid.refusals = w.refusals) (sent : mid.sent = w.sent) :
    Returned o groups w w'
      { exit with results := exit.results.mapVals fun _ r => afterRerun o upErr r } where
  idle := returned.idle
  answers := answers.trans returned.answers
  refusals := refusals ▸ returned.refusals
  backed := returned.backed.mapVals fun addr r backed => backed.afterRerun upErr
  parted := by
    obtain ⟨front, asked, same, keys, sent', split⟩ := returned.parted
    exact Parted.mapVals ⟨front, asked, same, keys, sent ▸ sent', split⟩ _
  within := returned.within

lemma sessionBody_follows {again : Request → Act Exit} (fits : Fits c o req) (may : MayEnter c groups) (idle : w.Idle)
    (rerun : req.skipTLS = false → ∀ mid : Watch, mid.Idle →
      (again { req with skipTLS := true }).Follows (Step c) (fun exit w' => Returned o groups mid w' exit) mid) :
    (sessionBody o again req groups grouped).Follows (Step c) (fun exit w' => Returned o groups w w' exit) w := by
  refine .bind (.ask fun _ => ⟨_, .enter idle may, ?_⟩)
  refine vet_then (w := _) fits rfl (fun ips cleared health => ?_) fun r cleared ips none =>
    finish_follows (.failAll rfl idle.alone idle.shut rfl rfl rfl none) idle.unleased
  refine leaseSession_then (w := _) fits rfl idle.unleased idle.alone (fun lease leasing => ?_) fun err =>
    finish_follows (.failAll rfl idle.alone idle.shut rfl rfl rfl (budgetFailure_unanswered err)) idle.unleased
  refine connect_then (w := _) fits rfl idle.alone health rfl leasing (fun socket paid granted => ?_)
    fun r paid none => releaseLease_then rfl idle.alone
      (finish_follows (.failAll rfl idle.alone idle.shut rfl rfl rfl none) rfl)
  refine (converse_follows (w := _) fits may rfl rfl rfl rfl rfl granted).andThen fun talk mid talked => ?_
  match talk, talked with
  | .ended last tls exit, ⟨ended, within⟩ =>
    refine .bind (.ask fun _ => ⟨_, .close ended.connected, ?_⟩)
    refine releaseLease_then ended.onward.lease rfl ?_
    refine stampTLS_then (w := w) ⟨ended.onward.inside, rfl, rfl, ended.onward.answers, ended.onward.refusals,
      ended.backed, ended.parted, within⟩ fun stamped closing => finish_follows closing rfl
  | .rerun upErr, ⟨first, onward, connected, sent⟩ =>
    refine quiet_then (markTLSBroken_only _ _) fun _ => ?_
    refine .bind (.ask fun _ => ⟨_, .close connected, ?_⟩)
    refine releaseLease_then onward.lease rfl ?_
    refine .bind (.ask fun _ => ⟨_, .leave onward.inside rfl rfl rfl, ?_⟩)
    refine (rerun first _ ⟨rfl, rfl, rfl, rfl⟩).andThen fun exit last returned => ?_
    refine quiet_then (notify_only _ _) fun _ => ?_
    refine .bind (.ask fun _ => ⟨_, .closeAgain returned.idle.alone, ?_⟩)
    exact returned.afterRerun onward.answers onward.refusals sent

/-- A session keeps to the protocol, whoever it talks to. -/
lemma session_follows (fits : Fits c o req) (may : MayEnter c groups) (idle : w.Idle) :
    (session o req groups grouped).Follows (Step c) (fun exit w' => Returned o groups w w' exit) w := by
  have plain : Fits c o { req with skipTLS := true } :=
    ⟨fits.host, fits.helo, fits.sender, fits.port, fits.timeout, fits.maxRCPT, fits.health, fits.leasing, fits.paced⟩
  refine sessionBody_follows fits may idle fun _ mid quiet => ?_
  exact sessionBody_follows plain may quiet fun second => absurd second (by simp)

end

end EmailVerifier.Prober
