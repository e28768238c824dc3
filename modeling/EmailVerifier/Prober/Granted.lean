import EmailVerifier.Prober.Wire

/-! Where everything is granted, everything is asked.

The request is played against surroundings that grant every wish and accept every
command. It greets, names its sender, asks about every address, and puts the
catch-all question of every domain that wants it. Nothing the request may say is
left unsaid, so what the protocol allows to be written is not too much.
-/

set_option autoImplicit false

namespace EmailVerifier.Prober
open Text Data Semantics

def scribe (h : Host) : Player calls (Bool × List Command) := (hosting h).noting commandBy

def Mute : Op → Prop
  | .write _ _ | .readReply _ | .dialContext _ _ _ => False
  | _ => True

lemma Aside.mute {op : Op} (aside : Aside op) : Mute op := by
  cases op <;> trivial

lemma scribe_mute (h : Host) (s : Bool × List Command) {op : Op} (mute : Mute op) : (scribe h s op).2 = s := by
  cases op <;> first | exact Prod.ext rfl (List.append_nil _) | cases mute

def Decoyed (h : Host) (said : List Command) (domain : Str) : Prop :=
  .bogus (bogusFor h.nonce domain) ∈ said

def Vouched (out : Results) (addr : Str) : Prop := ∃ r, out.lookup addr = some r ∧ r.cls = .valid

lemma Decoyed.mono {h : Host} {said said' : List Command} {domain : Str} (decoyed : Decoyed h said domain)
    (further : said <+: said') : Decoyed h said' domain :=
  further.subset decoyed

section Session

variable {h : Host} {A B : Type} {post : B → Bool × List Command → Prop} {said : List Command} {s : Bool × List Command}
  {o : Options} {req : Request} {conn : Conn}

lemma quiet_granted {p : Act A} {f : A → Act B} (quiet : p.Only Quiet)
    (rest : ∀ a, (f a).Against (scribe h) post s) : (p >>= f).Against (scribe h) post s :=
  .bind (quiet.against (fun _ quiet => scribe_mute h s quiet.aside.mute) rest)

lemma ask_granted {op : Op} {f : op.Answer → Act B} (mute : Mute op)
    (rest : (f (hosting h s.1 op).1).Against (scribe h) post s) :
    (Prog.ask (I := calls) op >>= f).Against (scribe h) post s := by
  change Prog.Against (scribe h) post (f (hosting h s.1 op).1) (scribe h s op).2
  rw [scribe_mute h s mute]
  exact rest

lemma acquire_granted : (acquire o req).Against (scribe h) (fun answer s => answer = .ok () ∧ s = (false, said))
    (false, said) := by
  unfold acquire
  split
  · exact ask_granted trivial (quiet_granted (notify_only _ _) fun _ => ⟨rfl, rfl⟩)
  · exact ⟨rfl, rfl⟩

lemma pay_granted {asked : Nat} : (pay o req asked).Against (scribe h)
    (fun answer s => answer = .ok () ∧ s = (false, said)) (false, said) := by
  unfold pay
  split
  · exact acquire_granted
  · exact ⟨rfl, rfl⟩

lemma step_granted {command : Command} {f : Except Failure Reply → Act B}
    (rest : (f (.ok welcome)).Against (scribe h) post (false, said ++ [command])) :
    (step conn (some command) >>= f).Against (scribe h) post (false, said) := by
  refine .bind (.bind ?_)
  change Prog.Against (scribe h) _ (f (.ok welcome)) (false, said ++ [command] ++ [])
  rw [List.append_nil]
  exact rest

variable {g : SessionGroup} {addrs : List Str} {domain : Str} {f : Except Exit Progress → Act B}

lemma bogusAddress_granted : (bogusAddress domain).Against (scribe h)
    (fun answer s => s = (false, said) ∧ (domain ≠ [] → answer = .ok (bogusFor h.nonce domain))) (false, said) := by
  unfold bogusAddress
  split
  · rename_i unnamed
    exact ⟨rfl, fun named => absurd unnamed named⟩
  · exact ⟨Prod.ext rfl (List.append_nil _), fun _ => rfl⟩

lemma leaseSession_granted : (leaseSession o req).Against (scribe h)
    (fun answer s => (∃ lease, answer = .ok lease) ∧ s = (false, said)) (false, said) := by
  unfold leaseSession
  split
  · exact ask_granted trivial (quiet_granted (notify_only _ _) fun _ => ⟨⟨_, rfl⟩, rfl⟩)
  · exact ⟨⟨_, rfl⟩, rfl⟩

structure Asked (h : Host) (o : Options) (req : Request) (g : SessionGroup) (said : List Command) : Prop where
  greeted : .ehlo (req.heloFor o) ∈ said
  opened : .mailFrom (req.mailFromFor o) ∈ said
  asked : ∀ addr ∈ g.addrs, .rcpt addr ∈ said
  decoyed : g.askCatchAll = true → g.domain ≠ [] → Decoyed h said g.domain

/-- How such a session ends: nothing is left over, and the only verdict is the one
that was asked for. -/
structure Settled (h : Host) (o : Options) (req : Request) (g : SessionGroup) (before : List Command) (exit : Exit)
    (s : Bool × List Command) : Prop where
  calm : s.1 = false
  further : before <+: s.2
  asked : Asked h o req g s.2
  rest : exit.rest = []
  verdicts : ∀ domain, (exit.verdicts.lookup domain).isSome → domain = g.domain ∧ g.askCatchAll = true

lemma stampTLS_granted {exit : Exit} {tls : Option TLSOutcome} {f : Exit → Act B}
    (settled : Settled h o req g said exit s)
    (rest : ∀ exit', Settled h o req g said exit' s → (f exit').Against (scribe h) post s) :
    (stampTLS o [g] exit tls >>= f).Against (scribe h) post s := by
  cases tls with
  | none => exact rest exit settled
  | some outcome =>
    refine .bind (quiet_granted (notify_only _ _) fun _ => quiet_granted (notify_only _ _) fun _ => ?_)
    exact rest _ ⟨settled.calm, settled.further, settled.asked, settled.rest, settled.verdicts⟩

variable [Unicode]

lemma toLower_welcome : toLower welcome.text = welcome.text := by
  have read : runes (lit "250") = [⟨50, [50]⟩, ⟨53, [53]⟩, ⟨48, [48]⟩] := by decide
  simp only [toLower, welcome, read, List.flatMap_cons, List.flatMap_nil, Unicode.lower_ascii 50 (by decide),
    Unicode.lower_ascii 53 (by decide), Unicode.lower_ascii 48 (by decide)]
  decide

lemma welcome_valid (id : Identity) : classifyAs welcome.code welcome.text id = .valid := by
  have plain : (contains (lit "250") (lit "greylist") || contains (lit "250") (lit "grey list")) = false := by decide
  unfold classifyAs
  rw [toLower_welcome]
  simp [welcome, plain]

lemma answerResult_welcome (o : Options) : (answerResult o welcome false).cls = .valid := welcome_valid _

lemma askOne_granted {further : Bool} {addr : Str} {more : List Str} {p : Progress}
    (rest : ∀ r, r.cls = .valid → (f (.ok (p.book addr r))).Against (scribe h) post (false, said ++ [.rcpt addr])) :
    (askOne o req conn further addr more p >>= f).Against (scribe h) post (false, said) := by
  refine .bind (.bind (pay_granted.mono ?_))
  rintro _ _ ⟨rfl, rfl⟩
  refine step_granted ?_
  have notRelay : relayRefusal welcome.code welcome.text = false := rfl
  have unlimited : domainLimitRefusal welcome.code welcome.text = false := rfl
  have idle : ¬(0 < o.policyStopFor req ∧ o.policyStopFor req ≤ (p.book addr (answerResult o welcome false)).policyRun) := by
    simp only [Progress.book, answerResult_welcome]
    simp
  simp only [notRelay, unlimited, Bool.and_false, Bool.false_eq_true, if_false]
  refine quiet_granted (report_only _ _ _ _ _) fun _ => ?_
  rw [if_neg idle]
  exact rest _ (answerResult_welcome o)

lemma askAddrs_granted {further : Bool} {later : List Str} {p : Progress}
    (rest : ∀ p', p'.verdicts = p.verdicts → (∀ addr, addr ∈ addrs ∨ Vouched p.out addr → Vouched p'.out addr) →
      (f (.ok p')).Against (scribe h) post (false, said ++ addrs.map .rcpt)) :
    (askAddrs o req conn further later addrs p >>= f).Against (scribe h) post (false, said) := by
  induction addrs generalizing p said with
  | nil =>
    have last := rest p rfl fun addr known => known.resolve_left List.not_mem_nil
    rw [List.map_nil, List.append_nil] at last
    exact last
  | cons addr more ih =>
    refine .bind (askOne_granted fun r valid => .of_bind (ih fun p' verdicts vouched => ?_))
    have last := rest p' verdicts fun other known => vouched other ?_
    · rw [List.append_assoc]
      exact last
    · rcases known with member | ⟨old, found, wasValid⟩
      · rcases List.mem_cons.mp member with rfl | member
        · exact .inr ⟨r, by simp [Progress.book], valid⟩
        · exact .inl member
      · right
        by_cases same : other = addr
        · exact ⟨r, by simp [Progress.book, Table.lookup_insert_ite, same], valid⟩
        · exact ⟨old, by simp [Progress.book, same, found], wasValid⟩

lemma askBogus_granted {audit : Bool} {n accepted answered : Nat} {f : Nat × Nat → Act B}
    (rest : ∀ counts said', said <+: said' → (domain ≠ [] → 0 < n → Decoyed h said' domain) →
      (f counts).Against (scribe h) post (false, said')) :
    (askBogus o req conn domain audit n accepted answered >>= f).Against (scribe h) post (false, said) := by
  induction n generalizing said accepted answered with
  | zero => exact rest _ said List.prefix_rfl fun _ some => absurd some (Nat.lt_irrefl 0)
  | succ n ih =>
    refine .bind (.bind (bogusAddress_granted.mono ?_))
    rintro answer _ ⟨rfl, drawn⟩
    match answer, drawn with
    | .error _, drawn =>
      exact rest _ said List.prefix_rfl fun named => by cases drawn named
    | .ok bogus, drawn =>
      refine .bind (acquire_granted.mono ?_)
      rintro _ _ ⟨rfl, rfl⟩
      refine step_granted ?_
      dsimp only
      rw [if_pos (welcome_valid _)]
      refine .of_bind (ih fun counts said' further _ => rest counts said' ?_ fun named _ => ?_)
      · exact (List.prefix_append _ _).trans further
      · cases drawn named
        exact further.subset (List.mem_append_right _ (List.mem_singleton.mpr rfl))

lemma askCatchAll_granted {out : Results} {f : CatchAllVerdict → Act B} (vouched : ∃ addr ∈ addrs, Vouched out addr)
    (rest : ∀ v said', said <+: said' → (domain ≠ [] → Decoyed h said' domain) →
      (f v).Against (scribe h) post (false, said')) :
    (askCatchAll o req conn domain addrs out >>= f).Against (scribe h) post (false, said) := by
  obtain ⟨addr, member, r, found, valid⟩ := vouched
  have accepted : (addrs.any fun addr => (out.lookup addr).any fun r => r.cls = .valid) = true :=
    List.any_eq_true.mpr ⟨addr, member, by simp [found, valid]⟩
  refine .bind ?_
  unfold askCatchAll
  rw [if_pos accepted]
  refine quiet_granted (auditDrawn_only o) fun audit => ?_
  refine askBogus_granted fun counts said' further decoyed => ?_
  refine quiet_granted (countCatchAll_only _ _) fun _ => rest _ said' further fun named => decoyed named ?_
  have some : 0 < o.catchAllProbesOr := by
    unfold Options.catchAllProbesOr
    split <;> omega
  split
  · exact Nat.lt_of_lt_of_le some (Nat.le_max_left _ _)
  · exact some

lemma askGroup_granted {later : List Str} (filled : g.addrs ≠ [])
    (rest : ∀ p' said', said ++ g.addrs.map .rcpt <+: said' →
      (g.askCatchAll = true → g.domain ≠ [] → Decoyed h said' g.domain) →
      (∀ domain, (p'.verdicts.lookup domain).isSome → domain = g.domain ∧ g.askCatchAll = true) →
      (f (.ok p')).Against (scribe h) post (false, said')) :
    (askGroup o req conn false later g {} >>= f).Against (scribe h) post (false, said) := by
  refine .bind (askAddrs_granted fun p none vouched => ?_)
  have none : p.verdicts = ∅ := none
  dsimp only
  split
  · rename_i asks
    obtain ⟨addr, member⟩ := List.exists_mem_of_ne_nil _ filled
    refine askCatchAll_granted ⟨addr, member, vouched addr (.inl member)⟩ fun v said' further decoyed => ?_
    refine rest _ said' further (fun _ => decoyed) fun domain found => ⟨?_, asks⟩
    rw [none, Table.lookup_insert_ite] at found
    split at found
    · assumption
    · simp at found
  · rename_i silent
    refine rest p _ List.prefix_rfl (fun asks => absurd asks silent) fun domain found => ?_
    rw [none, Table.lookup_empty] at found
    cases found

lemma transact_granted (filled : g.addrs ≠ []) (greeted : .ehlo (req.heloFor o) ∈ said) :
    (transact o req [g] false conn).Against (scribe h) (Settled h o req g said) (false, said) := by
  refine .bind (.bind (step_granted ?_))
  refine .bind (askGroup_granted filled fun p said' further decoyed verdicts => ?_)
  refine .bind ?_
  change Settled h o req g said _ (false, ((said' ++ []) ++ [.rset]) ++ [.quit])
  have longer : said' <+: ((said' ++ []) ++ [.rset]) ++ [.quit] := by simp
  have whole := further.trans longer
  have members : ∀ command ∈ said ++ [.mailFrom (req.mailFromFor o)] ++ g.addrs.map .rcpt,
      command ∈ ((said' ++ []) ++ [.rset]) ++ [.quit] := fun _ member => whole.subset member
  refine ⟨rfl, ?_, ⟨?_, ?_, ?_, fun asks named => (decoyed asks named).mono longer⟩, rfl, verdicts⟩
  · rw [List.append_assoc] at whole
    exact (List.prefix_append said _).trans whole
  · exact members _ (by simp [greeted])
  · exact members _ (by simp)
  · intro addr member
    exact members _ (by simp [member])

lemma converse_granted (filled : g.addrs ≠ []) :
    (converse o req [g] false conn).Against (scribe h)
      (fun talk s => ∃ last tls exit, talk = .ended last tls exit ∧ Settled h o req g said exit s) (true, said) := by
  refine .bind ?_
  change Prog.Against (scribe h) _ _ (false, said ++ [])
  rw [List.append_nil]
  refine .bind (.bind (step_granted ?_))
  have unoffered : advertisesSTARTTLS welcome.text = false := by
    have oneLine : (split 10 welcome.text).tail = [] := by decide
    simp [advertisesSTARTTLS, oneLine]
  have plain : ∃ outcome, negotiate o req conn welcome.text = pure (.plain outcome) := by
    unfold negotiate
    rw [unoffered]
    split
    · exact ⟨_, rfl⟩
    · exact ⟨_, if_pos (by simp)⟩
  obtain ⟨outcome, same⟩ := plain
  have settled : (transact o req [g] false conn).Against (scribe h)
      (Settled h o req g (said ++ [.ehlo (req.heloFor o)])) (false, said ++ [.ehlo (req.heloFor o)]) :=
    transact_granted filled (by simp)
  change Prog.Against (scribe h) _ (negotiate o req conn welcome.text >>= _) _
  rw [same, pure_bind]
  refine .bind (settled.mono fun exit s settled => ⟨_, _, exit, rfl, settled.calm, ?_, settled.asked,
    settled.rest, settled.verdicts⟩)
  exact (List.prefix_append said _).trans settled.further

lemma vet_granted : (vet o req addrs).Against (scribe h)
    (fun answer s => answer = .ok [⟨lit "192.0.2.1"⟩] ∧ s = (false, said)) (false, said) := by
  have resolved : (resolveHost o req addrs).Against (scribe h)
      (fun answer s => answer = .ok [⟨lit "192.0.2.1"⟩] ∧ s = (false, said)) (false, said) :=
    ask_granted trivial ⟨rfl, rfl⟩
  unfold vet standDown
  split
  · exact ask_granted trivial resolved
  · exact resolved

lemma connect_granted {a : Addr} {more : List Addr} :
    (connect o req addrs (a :: more)).Against (scribe h)
      (fun answer s => (∃ conn, answer = .ok conn) ∧ s = (true, said)) (false, said) := by
  refine .bind (acquire_granted.mono ?_)
  rintro _ _ ⟨rfl, rfl⟩
  refine .bind ?_
  change Prog.Against (scribe h) _ _ (true, said ++ [])
  rw [List.append_nil]
  exact ask_granted trivial ⟨⟨_, rfl⟩, rfl⟩

/-- One session where everything is granted: it says all it has to say. -/
lemma session_granted (filled : g.addrs ≠ []) :
    (session o req [g] false).Against (scribe h) (Settled h o req g said) (false, said) := by
  refine ask_granted trivial (.bind (vet_granted.mono ?_))
  rintro _ _ ⟨rfl, rfl⟩
  refine .bind (leaseSession_granted.mono ?_)
  rintro _ _ ⟨⟨lease, rfl⟩, rfl⟩
  refine .bind (connect_granted.mono ?_)
  rintro _ _ ⟨⟨conn, rfl⟩, rfl⟩
  refine .bind ((converse_granted filled).mono ?_)
  rintro _ s ⟨last, tls, exit, rfl, settled⟩
  refine ask_granted trivial ?_
  have released : (releaseLease lease).Against (scribe h) (fun _ s' => s' = s) s := by
    cases lease with
    | none => rfl
    | some lease => exact scribe_mute h s (show Mute (.release lease) from trivial)
  refine .bind (released.mono ?_)
  rintro _ _ rfl
  exact stampTLS_granted settled fun exit' settled' => ask_granted trivial settled'

end Session

section Requests

variable {h : Host} {A B : Type} {post : B → Bool × List Command → Prop} {said : List Command} {s : Bool × List Command}
  {o : Options} {req : Request}

def Host.strikes (h : Host) (o : Options) (addr : Str) : Bool := o.suppress && h.list.any fun find => (find addr).1

def Host.spared (h : Host) (o : Options) (emails : List Str) : List Str := emails.filter fun addr => !h.strikes o addr

lemma sift_granted {find : Str → Bool × Str} {emails : List Str} {into : Results} (lists : h.list = some find) :
    (sift o emails into).Against (scribe h)
      (fun sifted s' => s' = s ∧ sifted.1 = emails.filter fun addr => !(find addr).1) s := by
  induction emails generalizing into with
  | nil => exact ⟨rfl, rfl⟩
  | cons addr more ih =>
    refine ask_granted trivial ?_
    have found : (hosting h s.1 (.suppressed addr)).1 = .ok (find addr) := by
      simp only [hosting, lists]
      rfl
    rw [found]
    dsimp only
    split
    · rename_i hit
      simpa [hit] using ih
    · rename_i missed
      refine .bind (ih.mono ?_)
      rintro sifted _ ⟨rfl, same⟩
      exact ⟨rfl, by simp [missed, same]⟩

lemma unsuppressed_granted {emails : List Str} {into : Results} {f : List Str × Results → Act B}
    (rest : ∀ out, (f (h.spared o emails, out)).Against (scribe h) post s) :
    (unsuppressed o emails into >>= f).Against (scribe h) post s := by
  refine .bind ?_
  unfold unsuppressed
  split
  · rename_i asks
    refine ask_granted trivial ?_
    cases lists : h.list with
    | none =>
      have all : h.spared o emails = emails := by simp [Host.spared, Host.strikes, lists]
      have off : (hosting h s.1 .enforcing).1 = false := by
        simp only [hosting, lists]
        rfl
      rw [off]
      exact all ▸ rest into
    | some find =>
      have on : (hosting h s.1 .enforcing).1 = true := by
        simp only [hosting, lists]
        rfl
      rw [on]
      refine (sift_granted lists).mono ?_
      rintro ⟨allowed, out⟩ _ ⟨rfl, same⟩
      have spared : h.spared o emails = allowed := by simpa [Host.spared, Host.strikes, lists, asks] using same.symm
      exact spared ▸ rest out
  · rename_i silent
    have all : h.spared o emails = emails := by simp [Host.spared, Host.strikes, silent]
    exact all ▸ rest into

lemma knownRandomiser_granted {host : Str} {f : Bool → Act B} (rest : (f false).Against (scribe h) post s) :
    (knownRandomiser o host >>= f).Against (scribe h) post s := by
  refine .bind ?_
  unfold knownRandomiser
  split
  · exact .of_bind (f := f) (ask_granted trivial rest)
  · exact rest

lemma grouping_granted {host : Str} {f : Str × Bool → Act B}
    (rest : ∀ family, (f (family, false)).Against (scribe h) post s) :
    (grouping o host >>= f).Against (scribe h) post s := by
  refine .bind ?_
  unfold grouping
  split
  · exact rest _
  · split
    · exact ask_granted trivial (rest _)
    · exact rest _

/-- The queue holds every address that may be asked about, domain by domain. -/
structure Lined (h : Host) (o : Options) (groups : List DomainGroup) (queue : List SessionGroup) : Prop where
  filled : ∀ g ∈ queue, g.addrs ≠ []
  flat : queued queue = groups.flatMap fun g => h.spared o g.emails
  covered : ∀ g ∈ groups, h.spared o g.emails ≠ [] → ∃ whole ∈ queue, whole.domain = g.domain

lemma Lined.cons {groups : List DomainGroup} {queue : List SessionGroup} (lined : Lined h o groups queue)
    (g : DomainGroup) :
    Lined h o (g :: groups)
      (if h.spared o g.emails = [] then queue else { domain := g.domain, addrs := h.spared o g.emails } :: queue) := by
  split
  · rename_i empty
    refine ⟨lined.filled, by simp [lined.flat, empty], fun g' member some => ?_⟩
    rcases List.mem_cons.mp member with rfl | member
    · exact absurd empty some
    · exact lined.covered g' member some
  · rename_i some
    refine ⟨fun whole member => ?_, ?_, fun g' member some => ?_⟩
    · rcases List.mem_cons.mp member with rfl | member
      · exact some
      · exact lined.filled whole member
    · simpa [queued] using lined.flat
    · rcases List.mem_cons.mp member with rfl | member
      · exact ⟨_, List.mem_cons_self, rfl⟩
      · obtain ⟨whole, found, same⟩ := lined.covered g' member some
        exact ⟨whole, List.mem_cons_of_mem _ found, same⟩

lemma enqueue_granted {groups : List DomainGroup} {out : Results} :
    (enqueue o groups out).Against (scribe h) (fun answer s' => s' = s ∧ Lined h o groups answer.1) s := by
  induction groups generalizing out with
  | nil => exact ⟨rfl, by simp, rfl, by simp⟩
  | cons g more ih =>
    refine unsuppressed_granted fun out => .bind (ih.mono ?_)
    rintro ⟨queue, out'⟩ _ ⟨rfl, lined⟩
    exact ⟨rfl, lined.cons g⟩

/-- The domains whose catch-all question a request may put when some addresses are struck. -/
def Request.openDomains [Unicode] (struck : Str → Bool) (req : Request) : List Str :=
  if req.domains ≠ [] then
    ((mergeGroups req.domains).filter fun g => g.needCatchAll && g.emails.any fun a => !struck a).map DomainGroup.domain
  else if req.needCatchAll && req.emails.any fun a => !struck a then [req.domain] else []

structure Voiced [Unicode] (h : Host) (o : Options) (req : Request) (said : List Command) : Prop where
  greeted : h.spared o req.addrs ≠ [] → .ehlo (req.heloFor o) ∈ said
  opened : h.spared o req.addrs ≠ [] → .mailFrom (req.mailFromFor o) ∈ said
  asked : ∀ addr ∈ h.spared o req.addrs, .rcpt addr ∈ said
  decoyed : ∀ domain ∈ req.openDomains (h.strikes o), domain ≠ [] → Decoyed h said domain

structure Chunked (h : Host) (o : Options) (req : Request) (before : List Command) (pieces : List (List Str))
    (settled : Bool) (s : Bool × List Command) : Prop where
  calm : s.1 = false
  further : before <+: s.2
  asked : ∀ addr ∈ pieces.flatten, .rcpt addr ∈ s.2
  greeted : pieces ≠ [] → .ehlo (req.heloFor o) ∈ s.2
  opened : pieces ≠ [] → .mailFrom (req.mailFromFor o) ∈ s.2
  decoyed : pieces ≠ [] → req.needCatchAll = true → settled = false → req.domain ≠ [] → Decoyed h s.2 req.domain

lemma settle_isSome {new old : Verdicts} {domain : Str} (found : ((settle new old).lookup domain).isSome) :
    (old.lookup domain).isSome ∨ (new.lookup domain).isSome := by
  have gathered : ∀ (entries : List (Sigma fun _ : Str => CatchAllVerdict)) (m : Verdicts),
      ((entries.foldl (fun m e => if e.2.decided then m.insert e.1 e.2 else m) m).lookup domain).isSome →
      (m.lookup domain).isSome ∨ domain ∈ entries.keys := by
    intro entries
    induction entries with
    | nil => exact fun m found => .inl found
    | cons e more ih =>
      intro m found
      rcases ih _ found with here | later
      · dsimp only at here
        split at here
        · rw [Table.lookup_insert_ite] at here
          split at here
          · rename_i same
            exact .inr (by simp [same])
          · exact .inl here
        · exact .inl here
      · exact .inr (List.mem_cons_of_mem _ later)
  rcases gathered new.entries old found with old | new
  · exact .inl old
  · exact .inr (AList.lookup_isSome.mpr new)

structure Toured (h : Host) (o : Options) (req : Request) (d : Domains) (before : List Command) (t : Tour)
    (s : Bool × List Command) : Prop where
  further : before <+: s.2
  asked : ∀ addr ∈ queued t.queue, .rcpt addr ∈ s.2
  greeted : t.queue ≠ [] → .ehlo (req.heloFor o) ∈ s.2
  opened : t.queue ≠ [] → .mailFrom (req.mailFromFor o) ∈ s.2
  decoyed : ∀ g ∈ t.queue, d.need.lookup g.domain = some true → g.domain ≠ [] → Decoyed h s.2 g.domain

/-- A domain is not asked about again only where its question was put before. -/
def Recalled (h : Host) (said : List Command) (verdicts : Verdicts) : Prop :=
  ∀ domain, (verdicts.lookup domain).isSome → domain ≠ [] → Decoyed h said domain

variable {fuel : Nat} {d : Domains}

lemma Toured.idle {t : Tour} (done : t.queue = []) : Toured h o req d said t (false, said) :=
  ⟨List.prefix_rfl, by simp [done, queued], by simp [done], by simp [done], by simp [done]⟩

lemma Recalled.settle {said' : List Command} {g : SessionGroup} {old new : Verdicts}
    (recalled : Recalled h said old) (further : said <+: said')
    (verdicts : ∀ domain, (new.lookup domain).isSome → domain = g.domain ∧ g.askCatchAll = true)
    (asked : Asked h o req g said') : Recalled h said' (settle new old) := by
  intro domain found named
  rcases settle_isSome found with old | new
  · exact (recalled domain old named).mono further
  · obtain ⟨rfl, asks⟩ := verdicts domain new
    exact asked.decoyed asks named

lemma Recalled.decoyed {said' : List Command} {g : SessionGroup} {verdicts : Verdicts}
    (recalled : Recalled h said verdicts) (unknown : d.known = false) (need : d.need.lookup g.domain = some true)
    (named : g.domain ≠ []) (further : said <+: said') (asked : Asked h o req (d.asking verdicts g) said') :
    Decoyed h said' g.domain := by
  cases old : verdicts.lookup g.domain with
  | none => exact asked.decoyed (by simp [Domains.asking, Domains.wants, need, unknown, old]) named
  | some v => exact (recalled g.domain (by simp [old]) named).mono further

variable [Unicode]

lemma askChunks_granted {pieces : List (List Str)} {out : Results} {verdict : CatchAllVerdict} {settled : Bool}
    (filled : ∀ chunk ∈ pieces, chunk ≠ []) : (askChunks o req pieces out verdict settled).Against (scribe h)
      (fun _ => Chunked h o req said pieces settled) (false, said) := by
  induction pieces generalizing out verdict settled said with
  | nil => exact ⟨rfl, List.prefix_rfl, by simp, by simp, by simp, by simp⟩
  | cons chunk more ih =>
    refine .bind ((session_granted (filled chunk List.mem_cons_self)).mono ?_)
    rintro exit ⟨_, said'⟩ ⟨rfl, further, asked, -, -⟩
    have rest (out : Results) (verdict : CatchAllVerdict) (settled' : Bool) :
        (askChunks o req more out verdict settled').Against (scribe h)
          (fun _ => Chunked h o req said (chunk :: more) settled) (false, said') := by
      refine (ih fun piece member => filled piece (List.mem_cons_of_mem _ member)).mono fun _ s chunked => ?_
      refine ⟨chunked.calm, further.trans chunked.further, fun addr member => ?_,
        fun _ => chunked.further.subset asked.greeted, fun _ => chunked.further.subset asked.opened,
        fun _ need open_ named => (asked.decoyed (by simp [need, open_]) named).mono chunked.further⟩
      rcases List.mem_append.mp (List.flatten_cons ▸ member) with here | later
      · exact chunked.further.subset (asked.asked addr here)
      · exact chunked.asked addr later
    dsimp only
    split
    · exact rest _ _ _
    · exact rest _ _ _

lemma probeSingle_granted (single : req.domains = []) :
    (probeSingle o req).Against (scribe h) (fun _ s => Voiced h o req s.2) (false, said) := by
  have addrs : req.addrs = req.emails := by simp [Request.addrs, single]
  have domains : req.openDomains (h.strikes o) =
      if req.needCatchAll && req.emails.any fun a => !h.strikes o a then [req.domain] else [] := by
    simp [Request.openDomains, single]
  refine unsuppressed_granted fun out => ?_
  dsimp only
  split
  · rename_i none
    refine quiet_granted (recordAll_only _ _ _) fun _ => ?_
    have nobody : (req.emails.any fun a => !h.strikes o a) = false := by
      simpa [Host.spared, List.filter_eq_nil_iff] using none
    rw [← addrs] at none
    exact ⟨fun some => absurd none some, fun some => absurd none some, by simp [none], by simp [domains, nobody]⟩
  · rename_i some
    obtain ⟨pieces, filled⟩ := chunksWithin_filled o.maxRCPT_pos (h.spared o req.emails).length _ some
    refine knownRandomiser_granted (.bind ((askChunks_granted filled).mono fun _ s chunked => ?_))
    refine quiet_granted (markNew_only _ _ _) fun _ => quiet_granted (recordAll_only _ _ _) fun _ => ?_
    refine ⟨fun _ => chunked.greeted pieces, fun _ => chunked.opened pieces, fun addr member => chunked.asked addr ?_,
      fun domain wanted named => ?_⟩
    · rw [addrs] at member
      exact (chunks_flatten (h.spared o req.emails) o.maxRCPT).symm ▸ member
    · rw [domains] at wanted
      split at wanted
      · rename_i need
        cases List.mem_singleton.mp wanted
        exact chunked.decoyed pieces (Bool.and_elim_left need) rfl named
      · cases wanted

lemma tour_granted {t : Tour} (unknown : d.known = false)
    (enough : (queued t.queue).length ≤ fuel) (filled : ∀ g ∈ t.queue, g.addrs ≠ [])
    (recalled : Recalled h said t.verdicts) :
    (tour o req d fuel t).Against (scribe h) (fun _ => Toured h o req d said t) (false, said) := by
  induction fuel generalizing t said with
  | zero =>
    have done : t.queue = [] := by
      by_contra waiting
      obtain ⟨g, member⟩ := List.exists_mem_of_ne_nil _ waiting
      obtain ⟨addr, inside⟩ := List.exists_mem_of_ne_nil _ (filled g member)
      have some := List.length_pos_of_mem (mem_queued.mpr ⟨g, member, inside⟩)
      omega
    unfold tour
    rw [if_pos done]
    exact .idle done
  | succ fuel ih =>
    unfold tour
    split
    · rename_i done
      exact .idle done
    · rename_i waiting
      refine .bind (grouping_granted fun family => ?_)
      obtain ⟨g, alone, others⟩ := takeSession_alone o.maxRCPT waiting
      have taken := takeSession_spec false o.maxRCPT_pos waiting filled
      rw [alone] at taken
      dsimp only
      rw [Bool.false_and, alone]
      obtain ⟨_, -, part⟩ := taken.batch_parts g (List.mem_singleton.mpr rfl)
      have some : (d.asking t.verdicts g).addrs ≠ [] := part.some
      refine .bind ((session_granted some).mono ?_)
      rintro exit ⟨_, said'⟩ ⟨rfl, further, asked, rest, verdicts⟩
      have left : regroup d.domainOf exit.rest = [] := by
        rw [rest]
        rfl
      have fewer : (queued (takeSession t.queue o.maxRCPT false).2).length ≤ fuel := by
        have same := congrArg List.length taken.same
        have positive := List.length_pos_iff.mpr part.some
        simp only [queued, List.flatMap_cons, List.flatMap_nil, List.append_nil, List.length_append] at same enough ⊢
        omega
      change Prog.Against (scribe h) _ (tour o req d fuel _) (false, said')
      rw [left, List.nil_append]
      refine (ih fewer (fun g' member => ?_) (recalled.settle further verdicts asked)).mono fun _ s toured => ?_
      · obtain ⟨_, -, part⟩ := taken.left_parts g' member
        exact part.some
      · refine ⟨further.trans toured.further, fun addr member => ?_, fun _ => toured.further.subset asked.greeted,
          fun _ => toured.further.subset asked.opened, fun whole member need named => ?_⟩
        · rw [← taken.same] at member
          rcases List.mem_append.mp member with here | later
          · exact toured.further.subset (asked.asked addr (by simpa [queued, Domains.asking] using here))
          · exact toured.asked addr later
        · rcases others whole member with same | later
          · rw [same] at need named ⊢
            exact (recalled.decoyed unknown need named further asked).mono toured.further
          · exact toured.decoyed whole later need named

lemma probeDomains_granted (multi : req.domains ≠ []) (enough : req.addrs.length ≤ fuel) :
    (probeDomains fuel o req).Against (scribe h) (fun _ s => Voiced h o req s.2) (false, said) := by
  have addrs : req.addrs = req.domains.flatMap DomainGroup.emails := if_pos multi
  refine .bind (enqueue_granted.mono ?_)
  rintro ⟨queue, out⟩ _ ⟨rfl, lined⟩
  have flat : queued queue = h.spared o ((mergeGroups req.domains).flatMap DomainGroup.emails) := by
    rw [lined.flat, Host.spared, List.filter_flatMap]
    rfl
  have members : ∀ addr, addr ∈ queued queue ↔ addr ∈ h.spared o req.addrs := fun addr => by
    rw [flat, Host.spared, Host.spared, List.mem_filter, List.mem_filter, mem_mergeGroups_emails, addrs]
  have waiting (some : h.spared o req.addrs ≠ []) : queue ≠ [] := by
    rintro rfl
    obtain ⟨addr, member⟩ := List.exists_mem_of_ne_nil _ some
    exact absurd ((members addr).mpr member) List.not_mem_nil
  -- A domain that wants the question and has an address left stands in the queue.
  have waits (domain : Str) (wanted : domain ∈ req.openDomains (h.strikes o)) :
      ∃ whole ∈ queue, whole.domain = domain ∧ (needsOf (mergeGroups req.domains)).lookup domain = some true := by
    rw [Request.openDomains, if_pos multi] at wanted
    obtain ⟨g, kept, rfl⟩ := List.mem_map.mp wanted
    obtain ⟨member, wish⟩ := List.mem_filter.mp kept
    obtain ⟨need, someone⟩ := Bool.and_eq_true_iff.mp wish
    have some : h.spared o g.emails ≠ [] := by
      simpa [Host.spared, List.filter_eq_nil_iff] using someone
    obtain ⟨whole, waits, same⟩ := lined.covered g member some
    have wants := needsOf_lookup member fun g' member' => mergeGroups_unique member' member
    exact ⟨whole, waits, same, need ▸ wants⟩
  dsimp only
  split
  · rename_i none
    have nobody : ∀ addr ∈ h.spared o req.addrs, addr ∈ queued queue := fun addr => (members addr).mpr
    have voiced : Voiced h o req said := by
      refine ⟨fun some => absurd none (waiting some), fun some => absurd none (waiting some), fun addr member => ?_,
        fun domain wanted => ?_⟩
      · exact absurd (nobody addr member) (by simp [none, queued])
      · obtain ⟨whole, member, -⟩ := waits domain wanted
        exact absurd member (by simp [none])
    split
    · exact voiced
    · exact quiet_granted (recordAll_only _ _ _) fun _ => voiced
  · rename_i some
    have few : (queued queue).length ≤ fuel := by
      have once : (queued queue).Nodup := flat ▸ (nodup_mergeGroups_emails req.domains).filter _
      refine (once.subperm fun addr member => ?_).length_le.trans enough
      exact List.mem_of_mem_filter ((members addr).mp member)
    refine knownRandomiser_granted ?_
    have recalled : Recalled h said ∅ := fun domain found => by simp at found
    refine .bind ((tour_granted rfl few lined.filled recalled).mono fun found s toured => ?_)
    have voiced : Voiced h o req s.2 := by
      refine ⟨fun _ => toured.greeted some, fun _ => toured.opened some,
        fun addr member => toured.asked addr ((members addr).mpr member), fun domain wanted named => ?_⟩
      obtain ⟨whole, member, rfl, need⟩ := waits domain wanted
      exact toured.decoyed whole member need named
    cases found with
    | none => exact voiced
    | some t =>
      exact quiet_granted (markNew_only _ _ _) fun _ => quiet_granted (recordAll_only _ _ _) fun _ => voiced

/-- Where everything is granted, everything the request may say is said. -/
lemma Probe_granted (host : req.mxHost ≠ []) (asks : req.addrs ≠ []) (enough : req.addrs.length ≤ fuel) :
    (Probe fuel o req).Against (scribe h) (fun _ s => Voiced h o req s.2) (false, said) := by
  have probed : (probe fuel o req).Against (scribe h) (fun _ s => Voiced h o req s.2) (false, said) := by
    unfold probe
    rw [if_neg host]
    split
    · rename_i multi
      exact probeDomains_granted multi enough
    · rename_i single
      have single : req.domains = [] := by simpa using single
      have emails : req.emails ≠ [] := by simpa [Request.addrs, single] using asks
      rw [if_neg emails]
      exact .bind ((probeSingle_granted single).mono fun _ _ voiced => voiced)
  refine .bind (probed.mono fun found s voiced => ?_)
  rcases found with _ | text | response
  · exact voiced
  · exact voiced
  · exact quiet_granted (grouping_only _ _) fun _ => voiced

/-- There is a run in which everything is said, in every world that gives the answers of the host. -/
lemma exists_voiced_run {W : World calls Unit} (answers : ∀ fresh op, W () ⟨op, (hosting h fresh op).1⟩ ())
    (host : req.mxHost ≠ []) (asks : req.addrs ≠ []) (enough : req.addrs.length ≤ fuel) :
    ∃ tr q, Runs W (Probe fuel o req) () tr q () ∧ Voiced h o req (commandsIn tr) := by
  have won : (Probe fuel o req).Against (scribe h) (fun _ s => Voiced h o req s.2) (false, []) :=
    Probe_granted host asks enough
  have noted := (Probe fuel o req).play_noted (hosting h) commandBy (false, [])
  have voiced := won.play
  rw [show (Prog.play (scribe h) (Probe fuel o req) (false, [])).2.2.2 = _ from noted] at voiced
  have admits : ∀ s op, W () ⟨op, (scribe h s op).1⟩ () := fun s op => answers s.1 op
  exact ⟨_, _, (Probe fuel o req).play_runs (fun _ => ()) admits (false, []), voiced⟩

lemma Voiced.clean {tr : Trace calls} (unlisted : h.list = none) (asks : req.addrs ≠ [])
    (voiced : Voiced h o req (commandsIn tr)) (intended : AsIntended tr) : (scopeOf o req).Clean := by
  have free : h.strikes o = fun _ => false := by
    funext addr
    simp [Host.strikes, unlisted]
  have all : h.spared o req.addrs = req.addrs := by simp [Host.spared, free]
  have someone : h.spared o req.addrs ≠ [] := by rwa [all]
  rw [asIntended_iff] at intended
  refine ⟨intended _ (voiced.greeted someone) _ rfl, intended _ (voiced.opened someone) _ rfl,
    fun addr member => intended _ (voiced.asked addr (all.symm ▸ member)) _ rfl, fun domain member => ?_⟩
  have wanted : domain ∈ req.openDomains (h.strikes o) := by
    by_cases multi : req.domains = []
    · have emails : ∃ a, a ∈ req.emails := List.exists_mem_of_ne_nil _ (by simpa [Request.addrs, multi] using asks)
      simpa [scopeOf, Request.catchAllDomains, Request.openDomains, multi, free, emails] using member
    · have some (g : DomainGroup) : (∃ a, a ∈ g.emails) ↔ g.emails ≠ [] := List.length_pos_iff_exists_mem.symm.trans
        List.length_pos_iff
      simpa [scopeOf, Request.catchAllDomains, Request.openDomains, multi, free, some] using member
  by_cases named : domain = []
  · rw [named]
    decide
  · rw [← crlf_infix_bogusFor h.nonce]
    exact intended _ (voiced.decoyed domain wanted named) _ rfl

end Requests

end EmailVerifier.Prober
