import EmailVerifier.Api.Answers
import EmailVerifier.Prober.Stamping

/-! The verdicts on the answer to an accepted request about several domains.

An address stands under its own domain, and its result carries that domain's verdict
unless the host randomises. The verdicts are looked up only where somebody is asked: a
request whose every address is suppressed does not ask the store about the host.
-/

set_option autoImplicit false

namespace EmailVerifier.Api
open Text Data Semantics Prober

section
variable [Unicode] {r : ProbeRequest} {maxEmails : Int} {domains : List ProbeDomain}

def ProbeDomain.Lists (d : ProbeDomain) (addr : Str) : Prop :=
  addr ∈ d.emails ∧ atDomain (trimSuffix (trimSpace d.domain) (lit ".")) addr = true

lemma ProbeDomain.validate_lists {d : ProbeDomain} {addr : Str} (accepted : d.validate = .ok ())
    (member : addr ∈ d.emails) : d.Lists addr := by
  unfold ProbeDomain.validate at accepted
  dsimp only at accepted
  split at accepted
  · cases accepted
  split at accepted
  · cases accepted
  split at accepted
  · rename_i all
    exact ⟨member, List.all_eq_true.mp all addr member⟩
  · cases accepted

lemma ProbeRequest.merged_lists (several : r.domains = some domains)
    (accepted : r.validateDomains domains maxEmails = .ok ()) {g : DomainGroup} {addr : Str}
    (member : g ∈ mergeGroups r.toRequest.domains) (inside : addr ∈ g.emails) :
    ∃ d ∈ domains, domainKey d.domain = domainKey g.domain ∧ d.Lists addr := by
  obtain ⟨-, -, valid⟩ := ProbeRequest.validateDomains_ok accepted
  obtain ⟨g', listed, key, holds⟩ := mergeGroups_listed member inside
  rw [r.toRequest_domains several] at listed
  obtain ⟨d, here, rfl⟩ := List.mem_map.mp listed
  exact ⟨d, here, key, ProbeDomain.validate_lists (valid d here) holds⟩

/-- Whatever the orders of its loops over maps, an accepted request about several domains
is answered with a result for every address, which carries the verdict of its own domain,
none if none was established, or the one that condemns the host; and in any other orders
the same operations give the same answer. -/
theorem verdicts_stamped {o : Options} {fuel : Nat} (several : r.domains = some domains)
    (accepted : r.validateDomains domains maxEmails = .ok ()) (enough : r.toRequest.addrs.length ≤ fuel) :
    (∀ g ∈ mergeGroups r.toRequest.domains, ∀ addr ∈ g.emails,
      ∃ d ∈ domains, domainKey d.domain = domainKey g.domain ∧ d.Lists addr) ∧
    ∀ (walk : Walk) {S : Type} {W : World calls S} {s t : S} {tr : Trace calls}
      {answer : Option (Except Str (Results × Report))},
      Runs W (answerIn walk fuel o r.toRequest) s tr (.done answer) t →
      (∃ out report, answer = some (.ok (out, report)) ∧ (∀ addr, addr ∈ out ↔ addr ∈ r.toRequest.addrs) ∧
        Stamped r.toRequest out report) ∧
      ∀ walk' : Walk, ∃ answer', Runs W (answerIn walk' fuel o r.toRequest) s tr (.done answer') t ∧
        Agree answer answer' := by
  obtain ⟨host, some, -⟩ := ProbeRequest.validateDomains_ok accepted
  have multi : r.toRequest.domains ≠ [] := by
    rw [r.toRequest_domains several]
    simpa using some
  have valid : r.validate maxEmails = .ok () := (r.validate_several several).trans accepted
  refine ⟨fun g member addr inside => r.merged_lists several accepted member inside, ?_⟩
  intro walk S W s t tr answer run
  refine ⟨?_, fun walk' => (answerIn_alike walk walk' fuel o multi).runs run⟩
  have stamped := (answerIn_stamped multi).result run
  have ended := (answerIn_ends multi).result run
  match answer, stamped, ended with
  | none, _, ended => exact absurd rfl (ended.ends enough)
  | .some (.error err), _, ended => exact absurd rfl (ended.accepted host (r.validate_ok valid).2 err)
  | .some (.ok (out, report)), stamped, ended =>
    refine ⟨out, report, rfl, fun addr => ?_, stamped out report rfl⟩
    rw [← ended.keys out report rfl addr, AList.lookup_isSome]

end

def twoDomains : ProbeRequest where
  mxHost := lit "mx"
  domains := some [⟨lit "b", [lit "a@b"], true⟩, ⟨lit "d", [lit "c@d"], true⟩]

/-- It is answered by a host that accepts everything, with a verdict on each address. -/
theorem twoDomains_stamped : twoDomains.validateDomains (twoDomains.domains.getD []) 10 = .ok () ∧
    ∃ tr out report, Runs anyone (answerIn .plain 2 {} twoDomains.toRequest) () tr (.done (some (.ok (out, report)))) () ∧
      Stamped twoDomains.toRequest out report := by
  have accepted : twoDomains.validateDomains (twoDomains.domains.getD []) 10 = .ok () := by decide
  obtain ⟨tr, answer, run⟩ : ∃ tr answer, Runs anyone (answerIn .plain 2 {} twoDomains.toRequest) () tr (.done answer) () :=
    ⟨_, _, play_anyone granting_readable (answerIn .plain 2 {} twoDomains.toRequest) false⟩
  obtain ⟨out, report, rfl, -, stamped⟩ := ((verdicts_stamped rfl accepted (by decide)).2 .plain run).1
  exact ⟨accepted, tr, out, report, run, stamped⟩

/-- Surroundings in which the host is known for a randomiser and everybody is on the list. -/
def knowing : Player calls Bool := fun fresh op => match op with
  | .isRandomiser _ => (true, fresh)
  | .enforcing => (true, fresh)
  | .suppressed _ => (.ok (true, lit "asked"), fresh)
  | op => granting fresh op

lemma knowing_readable (fresh : Bool) (op : Op) : Readable ⟨op, (knowing fresh op).1⟩ := by
  cases op with
  | readReply conn => exact granting_readable fresh (.readReply conn)
  | _ => trivial

def served : Trace calls × Option (Except Str Response) × Bool :=
  (probeDomains 2 { suppress := true, profiles := .plain } twoDomains.toRequest).play knowing false

/-- The host is known for a randomiser, and no address carries the verdict: they are all
suppressed, and the store is not asked. -/
theorem suppressed_unstamped : twoDomains.validateDomains (twoDomains.domains.getD []) 10 = .ok () ∧
    (∀ host fresh, (knowing fresh (.isRandomiser host)).1 = true) ∧
    Runs anyone (probeDomains 2 { suppress := true, profiles := .plain } twoDomains.toRequest) () served.1
      (.done served.2.1) () ∧
    ∃ response res, served.2.1 = some (.ok response) ∧ response.results.lookup (lit "a@b") = some res ∧
      res.catchAll = none ∧ res.randomiser = none := by
  have found : resultIn (lit "a@b") served.2.1 = some (suppressedResult (lit "asked")) := by decide +kernel
  obtain ⟨response, answered, looked⟩ := resultIn_some found
  exact ⟨by decide, fun _ _ => rfl, play_anyone knowing_readable _ _, response, _, answered, looked, rfl, rfl⟩

end EmailVerifier.Api
