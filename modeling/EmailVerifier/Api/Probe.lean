import EmailVerifier.Prober.Granted

/-! `POST /probe`: what a request must pass, and what it may get onto the wire.

The handler validates and hands the strings on as they are. Validation looks for an
`@` and for names that are not blank, never for line breaks.
-/

set_option autoImplicit false

namespace EmailVerifier.Api
open Text Data Semantics Prober

structure ProbeDomain where
  domain : Str := []
  emails : List Str := []
  needCatchAll : Bool := false
  deriving DecidableEq, Repr

/-- The body of a request. A list that may be absent is an option: validation tells an
absent one from an empty one. -/
structure ProbeRequest where
  mxHost : Str := []
  domain : Str := []
  emails : Option (List Str) := none
  needCatchAll : Bool := false
  helo : Str := []
  mailFrom : Str := []
  policyStop : Int := 0
  domains : Option (List ProbeDomain) := none
  deriving DecidableEq, Repr

section
variable [Unicode]

def atDomain (domain email : Str) : Bool :=
  match cut email 64 with
  | none => false
  | some (_, after) => equalFold (trimSuffix after (lit ".")) domain

/-- One entry of `domains`. -/
def ProbeDomain.validate (d : ProbeDomain) : Except Str Unit :=
  let domain := trimSuffix (trimSpace d.domain) (lit ".")
  if domain = [] then .error (lit "every entry in domains needs a domain")
  else if d.emails = [] then .error (lit "every entry in domains needs emails")
  else if d.emails.all (atDomain domain) then .ok ()
  else .error (lit "every address in a domains entry must be at that domain")

/-- The loop over `domains`: how many addresses they hold together. -/
def countEmails : List ProbeDomain → Nat → Except Str Nat
  | [], total => .ok total
  | d :: more, total => do
    d.validate
    countEmails more (total + d.emails.length)

def ProbeRequest.validateDomains (r : ProbeRequest) (domains : List ProbeDomain) (maxEmails : Int) :
    Except Str Unit :=
  if trimSpace r.mxHost = [] then .error (lit "mx_host is required")
  else if r.domain ≠ [] ∨ r.emails ≠ none ∨ r.needCatchAll = true then
    .error (lit "domains replaces domain, emails and need_catch_all; send one shape")
  else if domains = [] then .error (lit "domains must not be empty")
  else if r.policyStop < 0 then .error (lit "policy_stop must not be negative")
  else do
    let total ← countEmails domains 0
    if total > maxEmails then .error (lit "emails exceeds the per-request limit") else .ok ()

def ProbeRequest.validate (r : ProbeRequest) (maxEmails : Int) : Except Str Unit :=
  match r.domains with
  | some domains => r.validateDomains domains maxEmails
  | none =>
    let emails := r.emails.getD []
    if trimSpace r.mxHost = [] then .error (lit "mx_host is required")
    else if emails = [] then .error (lit "emails must not be empty")
    else if emails.length > maxEmails then .error (lit "emails exceeds the per-request limit")
    else if r.needCatchAll = true ∧ trimSpace r.domain = [] then
      .error (lit "domain is required when need_catch_all is set")
    else if r.policyStop < 0 then .error (lit "policy_stop must not be negative")
    else if emails.all fun e => contains e (lit "@") then .ok ()
    else .error (lit "every entry in emails must be an address")

def ProbeRequest.toRequest (r : ProbeRequest) : Request where
  mxHost := r.mxHost
  domain := r.domain
  emails := r.emails.getD []
  needCatchAll := r.needCatchAll
  helo := r.helo
  mailFrom := r.mailFrom
  policyStop := r.policyStop
  domains := (r.domains.getD []).map fun d => ⟨d.domain, d.emails, d.needCatchAll⟩

omit [Unicode] in
lemma ProbeRequest.toRequest_domains {r : ProbeRequest} {domains : List ProbeDomain} (several : r.domains = some domains) :
    r.toRequest.domains = domains.map fun d => ⟨d.domain, d.emails, d.needCatchAll⟩ := by
  simp [ProbeRequest.toRequest, several]

lemma ProbeDomain.validate_ok {d : ProbeDomain} (accepted : d.validate = .ok ()) : d.domain ≠ [] ∧ d.emails ≠ [] := by
  unfold ProbeDomain.validate at accepted
  dsimp only at accepted
  split at accepted
  · cases accepted
  rename_i named
  split at accepted
  · cases accepted
  rename_i some
  refine ⟨fun none => named ?_, some⟩
  rw [none]
  rfl

lemma countEmails_ok {domains : List ProbeDomain} {total found : Nat}
    (counted : countEmails domains total = .ok found) : ∀ d ∈ domains, d.validate = .ok () := by
  induction domains generalizing total with
  | nil => simp
  | cons d more ih =>
    unfold countEmails at counted
    cases valid : d.validate with
    | error err =>
      rw [valid] at counted
      cases counted
    | ok _ =>
      rw [valid] at counted
      intro other member
      rcases List.mem_cons.mp member with rfl | member
      · exact valid
      · exact ih counted other member

variable {r : ProbeRequest} {maxEmails : Int}

lemma ProbeRequest.validateDomains_ok {domains : List ProbeDomain}
    (accepted : r.validateDomains domains maxEmails = .ok ()) :
    r.mxHost ≠ [] ∧ domains ≠ [] ∧ ∀ d ∈ domains, d.validate = .ok () := by
  unfold ProbeRequest.validateDomains at accepted
  split at accepted
  · cases accepted
  rename_i host
  split at accepted
  · cases accepted
  split at accepted
  · cases accepted
  rename_i some
  split at accepted
  · cases accepted
  cases counted : countEmails domains 0 with
  | error err =>
    rw [counted] at accepted
    cases accepted
  | ok total => exact ⟨ne_nil_of_trimSpace host, some, countEmails_ok counted⟩

lemma ProbeRequest.validate_several {domains : List ProbeDomain} (several : r.domains = some domains) :
    r.validate maxEmails = r.validateDomains domains maxEmails := by
  rw [ProbeRequest.validate, several]

lemma ProbeRequest.validate_single (single : r.domains = none) (accepted : r.validate maxEmails = .ok ()) :
    r.mxHost ≠ [] ∧ r.emails.getD [] ≠ [] ∧ (r.needCatchAll = true → r.domain ≠ []) := by
  unfold ProbeRequest.validate at accepted
  rw [single] at accepted
  dsimp only at accepted
  split at accepted
  · cases accepted
  rename_i host
  split at accepted
  · cases accepted
  rename_i some
  split at accepted
  · cases accepted
  split at accepted
  · cases accepted
  rename_i wish
  exact ⟨ne_nil_of_trimSpace host, some, fun need => ne_nil_of_trimSpace fun blank => wish ⟨need, blank⟩⟩

/-- An accepted request names a host and asks about an address. -/
lemma ProbeRequest.validate_ok
    (accepted : r.validate maxEmails = .ok ()) : r.toRequest.mxHost ≠ [] ∧ r.toRequest.addrs ≠ [] := by
  cases several : r.domains with
  | some domains =>
    obtain ⟨host, some, valid⟩ := validateDomains_ok (r.validate_several several ▸ accepted)
    refine ⟨host, ?_⟩
    obtain ⟨d, member⟩ := List.exists_mem_of_ne_nil _ some
    obtain ⟨addr, inside⟩ := List.exists_mem_of_ne_nil _ (ProbeDomain.validate_ok (valid d member)).2
    have groups := r.toRequest_domains several
    rw [Request.addrs, if_pos (by simpa [groups] using some), groups]
    exact List.ne_nil_of_mem (List.mem_flatMap.mpr ⟨_, List.mem_map_of_mem member, inside⟩)
  | none =>
    obtain ⟨host, some, -⟩ := r.validate_single several accepted
    exact ⟨host, by simpa [Request.addrs, ProbeRequest.toRequest, several] using some⟩

lemma ProbeRequest.validate_named (accepted : r.validate maxEmails = .ok ()) :
    ∀ domain ∈ r.toRequest.catchAllDomains, domain ≠ [] := by
  intro domain wanted
  cases several : r.domains with
  | some domains =>
    obtain ⟨-, some, valid⟩ := validateDomains_ok (r.validate_several several ▸ accepted)
    have groups := r.toRequest_domains several
    rw [Request.catchAllDomains, if_pos (by simpa [groups] using some)] at wanted
    obtain ⟨g, kept, rfl⟩ := List.mem_map.mp wanted
    obtain ⟨g', member, same⟩ := mergeGroups_domain (List.mem_of_mem_filter kept)
    rw [groups] at member
    obtain ⟨d, inside, rfl⟩ := List.mem_map.mp member
    rw [← same]
    exact (ProbeDomain.validate_ok (valid d inside)).1
  | none =>
    have alone : r.toRequest.domains = [] := by simp [ProbeRequest.toRequest, several]
    rw [Request.catchAllDomains, if_neg (by simp [alone])] at wanted
    split at wanted
    · rename_i need
      cases List.mem_singleton.mp wanted
      exact (r.validate_single several accepted).2.2 need
    · cases wanted

/-- The lines of an accepted request are the commands of its sessions, in every run,
exactly when none of the strings it may say hides a line break. -/
theorem Probe_lines_intended_iff {r : ProbeRequest} {maxEmails : Int} {o : Options} {fuel : Nat}
    (accepted : r.validate maxEmails = .ok ()) (enough : r.toRequest.addrs.length ≤ fuel) :
    (∀ tr q, Runs anyone (Probe fuel o r.toRequest) () tr q () → ∀ stretch, stretch <:+: tr →
      AsIntended stretch ∧ lit "DATA" ∉ splitCRLF (wire stretch)) ↔ (scopeOf o r.toRequest).Clean := by
  obtain ⟨host, asks⟩ := r.validate_ok accepted
  constructor
  · intro intended
    have readable (fresh : Bool) (op : Op) : anyone () ⟨op, (hosting {} fresh op).1⟩ () := hosting_readable {} fresh op
    obtain ⟨tr, q, run, voiced⟩ := exists_voiced_run (o := o) readable host asks enough
    exact voiced.clean rfl asks (intended tr q run tr List.infix_rfl).1
  · intro clean tr q run stretch part
    obtain ⟨w, path, -⟩ := (Probe_follows fuel o r.toRequest).path run
    have intended := asIntended_of_clean clean path part
    exact ⟨intended, intended.no_data⟩

end

def plainRequest : ProbeRequest where
  mxHost := lit "mx"
  emails := some [lit "a@b"]

/-- A request without line breaks is read back as it was meant in every run. -/
theorem plainRequest_lines_intended : plainRequest.validate 10 = .ok () ∧
    ∀ tr q, Runs anyone (Probe 1 {} plainRequest.toRequest) () tr q () → ∀ stretch, stretch <:+: tr →
      AsIntended stretch ∧ lit "DATA" ∉ splitCRLF (wire stretch) := by
  have accepted : plainRequest.validate 10 = .ok () := by decide
  have clean : (scopeOf {} plainRequest.toRequest).Clean :=
    ⟨by decide, by decide, by decide, by decide⟩
  exact ⟨accepted, (Probe_lines_intended_iff accepted (by decide)).mpr clean⟩

def smuggler : ProbeRequest where
  mxHost := lit "mx"
  emails := some [lit "a@b>\r\nDATA\r\nx"]

/-- It is accepted, and DATA stands on a line of its own. -/
theorem smuggler_sends_data : smuggler.validate 10 = .ok () ∧
    ∃ tr q, Runs anyone (Probe 1 {} smuggler.toRequest) () tr q () ∧ lit "DATA" ∈ splitCRLF (wire tr) := by
  have run := play_anyone granting_readable (Probe 1 {} smuggler.toRequest) false
  have said : lit "DATA" ∈ splitCRLF (wire ((Probe 1 {} smuggler.toRequest).play granting false).1) := by
    decide +kernel
  exact ⟨by decide, _, _, run, said⟩

end EmailVerifier.Api
