import EmailVerifier.Api.Probe
import EmailVerifier.Prober.Screening
import EmailVerifier.Suppress.Lookup

/-! Those who asked to be forgotten, and the requests that may still name them.

A domain may be spelled with a dot at its end, and validation and merging take it off.
The lookup does not, and the bogus addresses of a request are made up at a domain that
is not looked up at all.
-/

set_option autoImplicit false

namespace EmailVerifier.Api
open Text Data Semantics Prober

section
variable [Unicode]

def normal (s : Str) : Str := trimSuffix (Suppress.fold s) (lit ".")

def Forgotten (listed : List Str) (addr : Str) : Prop :=
  ∃ value ∈ listed, normal value = normal addr ∨
    ∃ domain ∈ afterLast 64 (Suppress.fold addr), normal value = normal domain

instance (listed : List Str) (addr : Str) : Decidable (Forgotten listed addr) :=
  inferInstanceAs (Decidable (∃ value ∈ listed, normal value = normal addr ∨
    ∃ domain ∈ afterLast 64 (Suppress.fold addr), normal value = normal domain))

variable [Suppress.Sha256]

def holding (salt : Str) (listed : List Str) : Suppress.Vault where
  hashes := listed.map (Suppress.Hash salt)

/-- On the list but for case and the white space around: by its digest, or by that of its domain,
if it has one. No dot is taken off. -/
def Found (salt : Str) (listed : List Str) (addr : Str) : Prop :=
  addr ≠ [] ∧ ∃ value ∈ listed, Suppress.Hash salt value = Suppress.Hash salt (Suppress.fold addr) ∨
    ∃ domain ∈ afterLast 64 (Suppress.fold addr), domain ≠ [] ∧ Suppress.Hash salt value = Suppress.Hash salt domain

instance (salt : Str) (listed : List Str) (addr : Str) : Decidable (Found salt listed addr) :=
  inferInstanceAs (Decidable (_ ∧ ∃ value ∈ listed, _ ∨ ∃ domain ∈ afterLast 64 (Suppress.fold addr), _ ∧ _))

def consult (l : Suppress.Options) (listed : List Str) (email : Str) : Bool × Str :=
  match ((l.Suppressed email).play Suppress.redis (holding l.salt listed)).2.1 with
  | .ok found => found
  | .error _ => (false, [])

def Consults (l : Suppress.Options) (listed : List Str) : Event calls → Prop
  | ⟨.enforcing, on⟩ => on = l.Enforcing
  | ⟨.suppressed email, answer⟩ =>
    ∃ found, ((l.Suppressed email).play Suppress.redis (holding l.salt listed)).2.1 = .ok found ∧ answer = .ok found
  | _ => True

def listing (l : Suppress.Options) (listed : List Str) : World calls Unit :=
  fun _ e _ => Readable e ∧ Consults l listed e

end

section
variable [Unicode] [Suppress.Sha256] {l : Suppress.Options} {listed : List Str}

lemma consult_eq {email : Str} {found : Bool × Str}
    (same : ((l.Suppressed email).play Suppress.redis (holding l.salt listed)).2.1 = .ok found) :
    consult l listed email = found := by
  unfold consult
  rw [same]

lemma consult_found (enabled : l.Enabled = true) (addr : Str) :
    (consult l listed addr).1 = decide (Found l.salt listed addr) := by
  obtain ⟨found, same, -, hit⟩ := Suppress.Suppressed_answers l (holding l.salt listed) addr
  rw [consult_eq same, Bool.eq_iff_iff, hit enabled, decide_eq_true_iff]
  refine and_congr_right fun _ => ?_
  unfold holding Suppress.candidates
  cases afterLast 64 (Suppress.fold addr) with
  | none => simp
  | some domain =>
    by_cases bare : domain = []
    · simp [bare]
    · simp [bare, or_and_right, and_or_left, exists_or]

lemma listing_eq (enforcing : l.Enforcing = true) : listing l listed = screened (consult l listed) := by
  funext _ e _
  refine propext (and_congr_right fun _ => ?_)
  obtain ⟨op, answer⟩ := e
  cases op with
  | enforcing =>
    change answer = l.Enforcing ↔ answer = true
    rw [enforcing]
  | suppressed email =>
    obtain ⟨found, same, -⟩ := Suppress.Suppressed_answers l (holding l.salt listed) email
    constructor
    · rintro ⟨other, returned, answered⟩
      rw [← consult_eq returned] at answered
      exact answered
    · intro answered
      refine ⟨found, same, ?_⟩
      rw [← consult_eq same]
      exact answered
  | _ => exact Iff.rfl

end

section
variable [Unicode] [Suppress.Sha256]

/-- Nobody who asked to be forgotten is asked about, in any run of an accepted request,
exactly when all of them whom the request names are on the list without a dot taken off, and
no domain with someone left to ask about makes up an address of theirs. -/
theorem forgotten_untouched_iff {l : Suppress.Options} {listed : List Str} {r : ProbeRequest} {maxEmails : Int}
    {o : Options} {fuel : Nat} (enforcing : l.Enforcing = true) (screens : o.suppress = true)
    (accepted : r.validate maxEmails = .ok ()) (enough : r.toRequest.addrs.length ≤ fuel) :
    (∀ tr q, Runs (listing l listed) (Probe fuel o r.toRequest) () tr q () →
      ∀ addr ∈ recipientsIn tr, ¬ Forgotten listed addr) ↔
    (∀ addr ∈ r.toRequest.addrs, Forgotten listed addr → Found l.salt listed addr) ∧
      ∀ domain ∈ r.toRequest.openDomains fun addr => Found l.salt listed addr,
        ∀ nonce, ¬ Forgotten listed (bogusFor nonce domain) := by
  obtain ⟨host, asks⟩ := r.validate_ok accepted
  have enabled : l.Enabled = true := (Bool.and_eq_true_iff.mp enforcing).1
  rw [listing_eq enforcing, Probe_recipients_iff screens host asks enough (r.validate_named accepted)]
  simp only [consult_found enabled]
  refine and_congr_left fun _ => forall_congr' fun addr => ?_
  rw [mem_missed, consult_found enabled, decide_eq_false_iff_not]
  constructor
  · intro free member forgotten
    by_contra missed
    exact free ⟨member, missed⟩ forgotten
  · rintro found ⟨member, missed⟩ forgotten
    exact missed (found member forgotten)

end

def enforced : Suppress.Options := { enforce := true, salt := lit "pepper", store := true }

def listedOne : List Str := [lit "jo@forgotten.test"]

def screening : Options := { suppress := true }

def mixedRequest : ProbeRequest where
  mxHost := lit "mx"
  emails := some [lit " Jo@Forgotten.test", lit "amy@b"]

/-- Spelled otherwise but without a dot, the address on the list is left out. -/
theorem mixedRequest_untouched : mixedRequest.validate 10 = .ok () ∧ Forgotten listedOne (lit " Jo@Forgotten.test") ∧
    ∀ tr q, Runs (listing enforced listedOne) (Probe 2 screening mixedRequest.toRequest) () tr q () →
      ∀ addr ∈ recipientsIn tr, ¬ Forgotten listedOne addr := by
  have accepted : mixedRequest.validate 10 = .ok () := by decide +kernel
  have nowhere : (mixedRequest.toRequest.openDomains fun addr => Found enforced.salt listedOne addr) = [] := by
    decide +kernel
  refine ⟨accepted, by decide +kernel, (forgotten_untouched_iff rfl rfl accepted (by decide)).mpr ⟨?_, ?_⟩⟩
  · decide +kernel
  · rw [nowhere]
    nofun

def dottedRequest : ProbeRequest where
  mxHost := lit "mx"
  emails := some [lit "jo@forgotten.test."]

def strayRequest : ProbeRequest where
  mxHost := lit "mx"
  domain := lit "forgotten.test"
  emails := some [lit "amy@b"]
  needCatchAll := true

lemma consulted_run (listed : List Str) (req : Request) : ∃ q, Runs (listing enforced listed) (Probe 1 screening req) ()
    ((Probe 1 screening req).play (hosting { list := some (consult enforced listed) }) false).1 q () := by
  rw [listing_eq rfl]
  exact ⟨_, (Probe 1 screening req).play_runs (fun _ => ()) (hosting_screens (consult enforced listed) _) false⟩

/-- Both are accepted, and both have the server asked about someone who is on the list. -/
theorem forgotten_are_asked :
    (dottedRequest.validate 10 = .ok () ∧ ∃ tr q,
      Runs (listing enforced listedOne) (Probe 1 screening dottedRequest.toRequest) () tr q () ∧
        ∃ addr ∈ recipientsIn tr, Forgotten listedOne addr) ∧
    strayRequest.validate 10 = .ok () ∧ ∃ tr q,
      Runs (listing enforced [lit "forgotten.test"]) (Probe 1 screening strayRequest.toRequest) () tr q () ∧
        ∃ addr ∈ recipientsIn tr, Forgotten [lit "forgotten.test"] addr := by
  obtain ⟨q, dotted⟩ := consulted_run listedOne dottedRequest.toRequest
  obtain ⟨q', stray⟩ := consulted_run [lit "forgotten.test"] strayRequest.toRequest
  exact ⟨⟨by decide +kernel, _, q, dotted, by decide +kernel⟩, by decide +kernel, _, q', stray, by decide +kernel⟩

end EmailVerifier.Api
