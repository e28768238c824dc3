import EmailVerifier.Api.Probe
import EmailVerifier.Prober.Alignment
import EmailVerifier.Prober.Retention

/-! What the answer to an accepted request says, in view of what was heard.

A request may name an address twice, and only a request about several domains is rid of
repetitions: the second question can undo the answer to the first. And a domain split
over two sessions in the middle can miss its catch-all question.
-/

set_option autoImplicit false

namespace EmailVerifier.Api
open Text Data Semantics Prober

section
variable [Unicode] {r : ProbeRequest} {maxEmails : Int} {o : Options} {fuel : Nat} {S : Type} {W : World calls S}
  {s t : S} {tr : Trace calls} {found : Option (Except Str Response)}

section
variable (accepted : r.validate maxEmails = .ok ())
include accepted

lemma ProbeRequest.toRequest_shape :
    (r.domains = none ∧ r.toRequest.domains = []) ∨ (r.domains.isSome = true ∧ r.toRequest.domains ≠ []) := by
  cases several : r.domains with
  | none => exact .inl ⟨rfl, by simp [ProbeRequest.toRequest, several]⟩
  | some domains =>
    obtain ⟨-, some, -⟩ := ProbeRequest.validateDomains_ok (r.validate_several several ▸ accepted)
    exact .inr ⟨rfl, by simpa [ProbeRequest.toRequest, several] using some⟩

lemma ProbeRequest.domainOf_named {addr : Str}
    (needed : r.toRequest.needs (r.toRequest.domainOf addr) = true) : r.toRequest.domainOf addr ≠ [] := by
  rcases r.toRequest_shape accepted with ⟨single, none⟩ | ⟨several, some⟩
  · rw [Request.needs, if_neg (not_not.mpr none)] at needed
    rw [Request.domainOf, if_neg (not_not.mpr none)]
    exact (r.validate_single single accepted).2.2 needed
  · obtain ⟨g, inside, same⟩ := Request.needs_listed some needed
    obtain ⟨domains, several⟩ := Option.isSome_iff_exists.mp several
    obtain ⟨-, -, valid⟩ := ProbeRequest.validateDomains_ok (r.validate_several several ▸ accepted)
    rw [r.toRequest_domains several] at inside
    obtain ⟨d, listed, rfl⟩ := List.mem_map.mp inside
    rw [← same]
    exact (ProbeDomain.validate_ok (valid d listed)).1

end

/-- An address is asked once: a request about several domains sees to it, and one about
a single domain does not. -/
lemma ProbeRequest.merged_once {addr : Str} (accepted : r.validate maxEmails = .ok ())
    (once : r.domains = none → (r.emails.getD []).count addr = 1) : r.toRequest.merged.count addr ≤ 1 := by
  rcases r.toRequest_shape accepted with ⟨single, none⟩ | ⟨-, some⟩
  · rw [Request.merged, if_neg (not_not.mpr none)]
    exact (once single).le
  · rw [Request.merged, if_pos some]
    exact List.nodup_iff_count_le_one.mp (nodup_mergeGroups_emails _) addr

section
variable {h : Heard} (accepted : r.validate maxEmails = .ok ()) (enough : r.toRequest.addrs.length ≤ fuel)
  (run : Runs W (Probe fuel o r.toRequest) s tr (.done found) t)
  (once : r.domains = none → (r.emails.getD []).count h.addr = 1)
  (heard : h ∈ (booksOf o r.toRequest tr).heard)
include accepted enough run once heard

/-- An answer about an address that is asked once is what the address comes back with. -/
lemma answer_booked (answer : h.limit = false) : ∃ response res, found = some (.ok response) ∧
    response.results.lookup h.addr = some res ∧ res.SameAnswer (h.result o) := by
  obtain ⟨host, asks⟩ := r.validate_ok accepted
  obtain ⟨response, rfl⟩ := Probe_answers host asks enough run
  obtain ⟨res, looked, same⟩ := Probe_keeps (r.merged_once accepted once) run heard answer
  exact ⟨response, res, rfl, looked, same⟩

/-- Whoever the request talks to: the answer about an address that is asked once is the result
returned for it, with the class of the reply. A further domain's address refused as relay, or as
one domain too many, has no answer. -/
theorem answers_kept (answer : h.further = true → relayRefusal h.reply.code h.reply.text = false ∧
    domainLimitRefusal h.reply.code h.reply.text = false) :
    ∃ response res, found = some (.ok response) ∧ response.results.lookup h.addr = some res ∧
      res.connected = some true ∧ res.cls = classifyAs h.reply.code h.reply.text o.identity ∧
      res.accepted = (rcptResult h.reply.code h.reply.text o.deferralRetryOr o.identity).accepted := by
  have taken : h.limit = false ∧ h.relay = false := by
    unfold Heard.limit Heard.relay
    cases further : h.further with
    | false => exact ⟨rfl, rfl⟩
    | true => simp [answer further]
  obtain ⟨response, res, ended, looked, same⟩ := answer_booked accepted enough run once heard taken.1
  rw [Heard.result, taken.2] at same
  exact ⟨response, res, ended, looked, same.connected, same.cls, same.accepted⟩

end

/-- In every run in which every token, lease and connection is granted, every reply can be
read, no policy stop fires and no domain is cut off after an accepted address, an address
that ends up valid at a domain to be asked has the answer to the catch-all question. -/
theorem accepted_questioned (accepted : r.validate maxEmails = .ok ()) (enough : r.toRequest.addrs.length ≤ fuel)
    (run : Runs W (Probe fuel o r.toRequest) s tr (.done found) t)
    (granted : .failed ∉ (booksOf o r.toRequest tr).mishaps) (unstopped : .stopped ∉ (booksOf o r.toRequest tr).mishaps)
    (whole : .split ∉ (booksOf o r.toRequest tr).mishaps) :
    ∃ response, found = some (.ok response) ∧ ∀ addr res, response.results.lookup addr = some res →
      res.cls = .valid → r.toRequest.needs (r.toRequest.domainOf addr) = true → res.catchAll.isSome = true := by
  obtain ⟨host, asks⟩ := r.validate_ok accepted
  obtain ⟨response, rfl⟩ := Probe_answers host asks enough run
  refine ⟨response, rfl, fun addr res looked valid needed => ?_⟩
  exact Probe_settles run ⟨granted, unstopped, whole⟩ looked valid needed (r.domainOf_named accepted needed)

end

def repeated : ProbeRequest where
  mxHost := lit "mx"
  emails := some [lit "a@b", lit "a@b"]

def droppingOut : Player calls (List Command) := fun sent o => match o with
  | .readReply _ => (if 1 < sent.countP isRcpt then .error broken else .ok (hospitable sent), sent)
  | o => replying hospitable sent o

lemma droppingOut_readable (sent : List Command) (o : Op) : Readable ⟨o, (droppingOut sent o).1⟩ := by
  cases o with
  | readReply conn =>
    by_cases gone : 1 < sent.countP isRcpt
    · have fails : (droppingOut sent (.readReply conn)).1 = (.error broken : Except Failure Reply) := if_pos gone
      rw [fails]
      trivial
    · have replies : (droppingOut sent (.readReply conn)).1 = (.ok (hospitable sent) : Except Failure Reply) :=
        if_neg gone
      rw [replies]
      exact hospitable_formed sent
  | _ => trivial

def resultFor (found : Option (Except Str Response)) (addr : Str) : Option Result :=
  match found with
  | some (.ok response) => response.results.lookup addr
  | _ => none

lemma resultFor_some {found : Option (Except Str Response)} {addr : Str} {res : Result}
    (is : resultFor found addr = some res) :
    ∃ response, found = some (.ok response) ∧ response.results.lookup addr = some res := by
  match found, is with
  | some (.ok response), is => exact ⟨response, rfl, is⟩

/-- One address, asked once and accepted. -/
theorem plainRequest_answer_kept : ∃ tr response res,
    Runs anyone (Probe 1 {} plainRequest.toRequest) () tr (.done (some (.ok response))) () ∧
    response.results.lookup (lit "a@b") = some res ∧ res.connected = some true ∧ res.cls = .valid := by
  have accepted : plainRequest.validate 10 = .ok () := by decide
  have run := play_anyone granting_readable (Probe 1 {} plainRequest.toRequest) false
  have heard : ⟨lit "a@b", welcome, false⟩ ∈
      (booksOf {} plainRequest.toRequest ((Probe 1 {} plainRequest.toRequest).play granting false).1).heard := by
    decide +kernel
  obtain ⟨response, res, ended, looked, connected, cls, -⟩ :=
    answers_kept accepted (by decide) run (by decide) heard nofun
  exact ⟨_, response, res, ended ▸ run, looked, connected, cls.trans (by decide +kernel)⟩

/-- The first question is answered, and the connection drops on the second: the address
comes back without an answer. -/
theorem repeated_answer_lost : repeated.validate 10 = .ok () ∧ ∃ tr response h res,
    Runs anyone (Probe 2 {} repeated.toRequest) () tr (.done (some (.ok response))) () ∧
    h ∈ (booksOf {} repeated.toRequest tr).heard ∧ h.further = false ∧
    classifyAs h.reply.code h.reply.text ({} : Options).identity = .valid ∧
    response.results.lookup h.addr = some res ∧ res.connected = some false ∧ res.cls = .connError := by
  have run := play_anyone droppingOut_readable (Probe 2 {} repeated.toRequest) []
  have heard : ⟨lit "a@b", welcome, false⟩ ∈
      (booksOf {} repeated.toRequest ((Probe 2 {} repeated.toRequest).play droppingOut []).1).heard := by
    decide +kernel
  have last : (resultFor ((Probe 2 {} repeated.toRequest).play droppingOut []).2.1 (lit "a@b")).any
      (fun res => res.connected = some false ∧ res.cls = .connError) = true := by
    decide +kernel
  obtain ⟨res, is, lost⟩ := (Option.any_eq_true _ _).mp last
  obtain ⟨response, ended, looked⟩ := resultFor_some is
  rw [ended] at run
  exact ⟨by decide, _, response, _, res, run, heard, rfl, by decide +kernel, looked, of_decide_eq_true lost⟩

def threeAddresses : ProbeRequest where
  mxHost := lit "mx"
  domains := some [⟨lit "c", [lit "x@c"], false⟩, ⟨lit "d", [lit "a@d", lit "b@d"], true⟩]

def unknownUser : Reply where
  code := 550
  text := lit "550"

def later : Reply where
  code := 451
  text := lit "451 4.3.0"

/-- Replies that turn the second domain away at its second address, and do not know that
address when it is asked alone. -/
def cuttingOff (sent : List Command) : Reply :=
  if sent.getLast? = some (.rcpt (lit "b@d")) then
    if .rset ∈ sent then later else unknownUser
  else hospitable sent

lemma cuttingOff_formed (sent : List Command) : (cuttingOff sent).Formed := by
  unfold cuttingOff
  split
  · split
    · exact ⟨lit "451 4.3.0\r\n", [], by decide⟩
    · exact ⟨lit "550\r\n", [], by decide⟩
  · exact hospitable_formed sent

/-- Where every command is accepted, the second domain has its verdict. -/
theorem threeAddresses_questioned : ∃ tr response res,
    Runs anyone (Probe 3 groupedOptions threeAddresses.toRequest) () tr (.done (some (.ok response))) () ∧
    response.results.lookup (lit "a@d") = some res ∧ res.cls = .valid ∧ res.catchAll.isSome = true := by
  have accepted : threeAddresses.validate 10 = .ok () := by decide
  have run := play_anyone (replying_readable hospitable_formed) (Probe 3 groupedOptions threeAddresses.toRequest) []
  have clean : (booksOf groupedOptions threeAddresses.toRequest
      ((Probe 3 groupedOptions threeAddresses.toRequest).play (replying hospitable) []).1).mishaps = [] := by
    decide +kernel
  obtain ⟨response, ended, questioned⟩ := accepted_questioned accepted (by decide) run (by rw [clean]; decide)
    (by rw [clean]; decide) (by rw [clean]; decide)
  have last : (resultFor ((Probe 3 groupedOptions threeAddresses.toRequest).play (replying hospitable) []).2.1
      (lit "a@d")).any (fun res => res.cls = .valid) = true := by
    decide +kernel
  obtain ⟨res, is, valid⟩ := (Option.any_eq_true _ _).mp last
  rw [ended] at is run
  exact ⟨_, response, res, run, is, of_decide_eq_true valid,
    questioned _ res is (of_decide_eq_true valid) (by decide +kernel)⟩

/-- Everything is granted, and an address of the second domain ends up valid without the
catch-all question: the domain was cut off after it, and the session that asked about the
other address had nobody accepted. -/
theorem cutOff_unquestioned : threeAddresses.validate 10 = .ok () ∧ ∃ tr response res,
    Runs anyone (Probe 3 groupedOptions threeAddresses.toRequest) () tr (.done (some (.ok response))) () ∧
    .failed ∉ (booksOf groupedOptions threeAddresses.toRequest tr).mishaps ∧
    .stopped ∉ (booksOf groupedOptions threeAddresses.toRequest tr).mishaps ∧
    threeAddresses.toRequest.needs (threeAddresses.toRequest.domainOf (lit "a@d")) = true ∧
    response.results.lookup (lit "a@d") = some res ∧ res.cls = .valid ∧ res.catchAll = none := by
  have run := play_anyone (replying_readable cuttingOff_formed) (Probe 3 groupedOptions threeAddresses.toRequest) []
  have split : (booksOf groupedOptions threeAddresses.toRequest
      ((Probe 3 groupedOptions threeAddresses.toRequest).play (replying cuttingOff) []).1).mishaps = [.split] := by
    decide +kernel
  have last : (resultFor ((Probe 3 groupedOptions threeAddresses.toRequest).play (replying cuttingOff) []).2.1
      (lit "a@d")).any (fun res => res.cls = .valid ∧ res.catchAll = none) = true := by
    decide +kernel
  obtain ⟨res, is, unasked⟩ := (Option.any_eq_true _ _).mp last
  obtain ⟨response, ended, looked⟩ := resultFor_some is
  rw [ended] at run
  exact ⟨by decide, _, response, res, run, by rw [split]; decide, by rw [split]; decide, by decide +kernel, looked,
    of_decide_eq_true unasked⟩

end EmailVerifier.Api
