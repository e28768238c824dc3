import EmailVerifier.Prober.Granted
import EmailVerifier.Semantics.Triple

/-! A request under a list that is enforced and can be read.

Whom the list finds is not asked about, and a domain nobody of which is left is not
asked about either. That is all the list does: where everything is granted, the
addresses it does not find and the domains they stand under are asked about.
-/

set_option autoImplicit false

namespace EmailVerifier.Prober
open Text Data Semantics

/-- The list is on and says of every address what `find` does. -/
def Sifts (find : Str → Bool × Str) : Event calls → Prop
  | ⟨.enforcing, on⟩ => on = true
  | ⟨.suppressed email, answer⟩ => answer = .ok (find email)
  | _ => True

def screened (find : Str → Bool × Str) : World calls Unit := fun _ e _ => Readable e ∧ Sifts find e

/-- The addresses that `find` does not find. -/
def missed (find : Str → Bool × Str) (emails : List Str) : List Str := emails.filter fun addr => !(find addr).1

lemma mem_missed {find : Str → Bool × Str} {emails : List Str} {addr : Str} :
    addr ∈ missed find emails ↔ addr ∈ emails ∧ (find addr).1 = false := by
  simp [missed]

section
variable {find : Str → Bool × Str} {o : Options} {emails : List Str} {into : Results}

lemma sift_only : (sift o emails into).Only Quiet := by
  induction emails generalizing into with
  | nil => trivial
  | cons addr more ih =>
    refine .bind ((Prog.only_ask _).mpr trivial) fun answer => ?_
    rcases answer with err | ⟨hit, reason⟩
    · exact .bind (notify_only _ _) fun _ => .bind ih fun _ => trivial
    · dsimp only
      split
      · exact ih
      · exact .bind ih fun _ => trivial

lemma unsuppressed_only : (unsuppressed o emails into).Only Quiet := by
  unfold unsuppressed
  split
  · refine .bind ((Prog.only_ask _).mpr trivial) fun on => ?_
    split
    · exact sift_only
    · trivial
  · trivial

lemma enqueue_only {groups : List DomainGroup} : (enqueue o groups into).Only Quiet := by
  induction groups generalizing into with
  | nil => trivial
  | cons g more ih => exact .bind unsuppressed_only fun _ => .bind ih fun _ => trivial

lemma sift_screened : (sift o emails into).Ensures (screened find)
    (fun sifted _ => sifted.1 = missed find emails) () := by
  induction emails generalizing into with
  | nil => rfl
  | cons addr more ih =>
    intro answer _ answered
    cases answered.2
    dsimp only [bind, Prog.bind]
    split
    · rename_i hit
      simpa [missed, hit] using ih
    · rename_i free
      refine ih.andThen fun sifted _ same => ?_
      change addr :: sifted.1 = _
      simp [missed, free, same]

lemma unsuppressed_screened (asks : o.suppress = true) : (unsuppressed o emails into).Ensures (screened find)
    (fun sifted _ => sifted.1 = missed find emails) () := by
  unfold unsuppressed
  rw [if_pos asks]
  intro on _ answered
  cases answered.2
  exact sift_screened

lemma enqueue_screened {groups : List DomainGroup} (asks : o.suppress = true) :
    (enqueue o groups into).Ensures (screened find)
      (fun found _ => ∀ g ∈ found.1, ∀ addr ∈ g.addrs, (find addr).1 = false) () := by
  induction groups generalizing into with
  | nil => simp [enqueue, Prog.Ensures, pure]
  | cons g more ih =>
    refine (unsuppressed_screened asks).andThen fun sifted _ left => ih.andThen fun found _ free => ?_
    intro part member addr here
    dsimp only at member
    split at member
    · exact free part member addr here
    · rcases List.mem_cons.mp member with rfl | member
      · rw [left] at here
        exact (mem_missed.mp here).2
      · exact free part member addr here

end

/-- What the options and the request fix, less what the list takes out. -/
def openScope [Unicode] (find : Str → Bool × Str) (o : Options) (req : Request) : Scope :=
  { scopeOf o req with
    addrs := missed find req.addrs
    domains := req.openDomains fun addr => (find addr).1 }

section
variable [Unicode] {find : Str → Bool × Str} {o : Options} {req : Request} {P : Event calls → Prop}

lemma openScope_fits : Fits (openScope find o req) o req :=
  ⟨rfl, rfl, rfl, rfl, rfl, rfl, rfl, rfl, rfl⟩

section
variable (fine : ∀ w e w', Step (openScope find o req) w e w' → P e)
include fine

lemma quiet_upholds {A : Type} {p : Act A} (quiet : p.Only Quiet) : p.Upholds (screened find) P () :=
  quiet.upholds fun _ quiet => fine {} _ {} (.aside quiet.aside)

lemma probeSingle_screened (asks : o.suppress = true) (single : req.domains = []) :
    (probeSingle o req).Upholds (screened find) P () := by
  have addrs : req.addrs = req.emails := by simp [Request.addrs, single]
  have sifts : (unsuppressed o req.emails ∅).Follows (Step (openScope find o req))
      (fun sifted _ => Sifted o [] req.emails ∅ sifted) {} :=
    .of_bind (f := pure) (unsuppressed_then AllBacked.empty fun _ sift => sift)
  rw [probeSingle_eq]
  refine .bind (quiet_upholds fine unsuppressed_only) ((sifts.promises.and (unsuppressed_screened asks)).mono ?_)
  rintro sifted _ ⟨⟨_, sift⟩, left⟩
  refine (askAllowed_follows openScope_fits single sift (fun addr member => ?_) fun some need => ?_).upholds fine
  · rw [left, ← addrs] at member
    exact member
  · obtain ⟨addr, member⟩ := List.exists_mem_of_ne_nil _ some
    rw [left] at member
    have someone : (req.emails.any fun a => !(find a).1) = true :=
      List.any_eq_true.mpr ⟨addr, (mem_missed.mp member).1, by simp [(mem_missed.mp member).2]⟩
    simp [openScope, Request.openDomains, single, need, someone]

lemma probeDomains_screened {fuel : Nat} (asks : o.suppress = true) (multi : req.domains ≠ []) :
    (probeDomains fuel o req).Upholds (screened find) P () := by
  have fills : (enqueue o (mergeGroups req.domains) ∅).Follows (Step (openScope find o req))
      (fun found _ => Enqueued o [] (mergeGroups req.domains) ∅ found) {} :=
    .of_bind (f := pure) (enqueue_then AllBacked.empty fun _ found => found)
  rw [probeDomains_eq]
  refine .bind (quiet_upholds fine enqueue_only) ((fills.promises.and (enqueue_screened asks)).mono ?_)
  rintro found _ ⟨⟨_, enqueued⟩, free⟩
  refine (tourAllowed_follows openScope_fits multi enqueued (enqueued.permitted (fun g member addr here => ?_)
    fun g member whole inside named need => ?_)).upholds fine
  · refine mem_missed.mpr ⟨?_, free g member addr here⟩
    rw [Request.addrs, if_pos multi, ← mem_mergeGroups_emails]
    exact enqueued.some_of.subset (mem_queued.mpr ⟨g, member, here⟩)
  · obtain ⟨filled, whole', inside', named', part⟩ := enqueued.parts g member
    cases mergeGroups_unique inside inside' (named.trans named'.symm)
    obtain ⟨addr, here⟩ := List.exists_mem_of_ne_nil _ filled
    have someone : (whole.emails.any fun a => !(find a).1) = true :=
      List.any_eq_true.mpr ⟨addr, part here, by simp [free g member addr here]⟩
    change g.domain ∈ req.openDomains fun addr => (find addr).1
    rw [Request.openDomains, if_pos multi]
    exact List.mem_map.mpr ⟨whole, List.mem_filter.mpr ⟨inside, by simp [need, someone]⟩, named⟩

/-- Every event of a request is a step within what the list leaves. -/
lemma Probe_screened {fuel : Nat} (asks : o.suppress = true) : (Probe fuel o req).Upholds (screened find) P () := by
  have probed : (probe fuel o req).Upholds (screened find) P () := by
    unfold probe
    split
    · trivial
    split
    · rename_i multi
      exact probeDomains_screened fine asks multi
    · rename_i single
      split
      · trivial
      · exact (probeSingle_screened fine asks (not_not.mp single)).andThen fun _ _ => trivial
  refine probed.andThen fun found _ => ?_
  rcases found with _ | text | response
  · trivial
  · trivial
  · exact (quiet_upholds fine (grouping_only _ _)).andThen fun _ _ => trivial

end

def Command.recipient : Command → Option Str
  | .rcpt addr => some addr
  | .bogus addr => some addr
  | _ => none

def recipientsIn (tr : Trace calls) : List Str := (commandsIn tr).filterMap Command.recipient

omit [Unicode] in
lemma Step.recipient {c : Scope} {w w' : Watch} {e : Event calls} (step : Step c w e w') :
    ∀ command ∈ commandBy e.op, ∀ addr ∈ command.recipient,
      addr ∈ c.addrs ∨ ∃ domain ∈ c.domains, ∃ nonce, addr = bogusFor nonce domain := by
  intro command written addr asks
  cases step with
  | aside aside => rw [aside.commandBy] at written; cases written
  | write _ sends =>
    cases List.mem_singleton.mp written
    cases sends with
    | rcpt _ _ member => cases asks; exact .inl member
    | bogus _ _ member => cases asks; exact .inr ⟨_, member, _, rfl⟩
    | ehlo _ | mailFrom _ | startTLS _ | rset _ _ => cases asks
  | bye _ _ farewell =>
    cases List.mem_singleton.mp written
    rcases farewell with rfl | rfl <;> cases asks
  | _ => cases written

omit [Unicode] in
lemma hosting_screens (find : Str → Bool × Str) (nonce : Nonce) (fresh : Bool) (op : Op) :
    screened find () ⟨op, (hosting { list := some find, nonce } fresh op).1⟩ () := by
  refine ⟨hosting_readable _ fresh op, ?_⟩
  cases op <;> first | rfl | trivial

omit [Unicode] in
lemma mem_recipientsIn {tr : Trace calls} {addr : Str} :
    addr ∈ recipientsIn tr ↔ ∃ command ∈ commandsIn tr, addr ∈ command.recipient := by
  simp [recipientsIn, List.mem_filterMap, Option.mem_def]

lemma openDomains_subset {struck : Str → Bool} {domain : Str} (member : domain ∈ req.openDomains struck) :
    domain ∈ req.catchAllDomains := by
  unfold Request.openDomains at member
  unfold Request.catchAllDomains
  split at member
  · rename_i multi
    rw [if_pos multi]
    obtain ⟨g, kept, rfl⟩ := List.mem_map.mp member
    obtain ⟨inside, wish⟩ := List.mem_filter.mp kept
    obtain ⟨need, someone⟩ := Bool.and_eq_true_iff.mp wish
    obtain ⟨addr, here, -⟩ := List.any_eq_true.mp someone
    exact List.mem_map.mpr ⟨g, List.mem_filter.mpr ⟨inside, by simp [need, List.ne_nil_of_mem here]⟩, rfl⟩
  · rename_i single
    rw [if_neg single]
    split at member
    · rename_i wish
      rwa [if_pos (Bool.and_elim_left wish)]
    · cases member

/-- What a list must leave out: nobody bad is asked about in any run exactly when nobody
bad is missed, and no domain under which someone is missed makes up a bad name. -/
lemma Probe_recipients_iff {fuel : Nat} {bad : Str → Prop} (asks : o.suppress = true) (host : req.mxHost ≠ [])
    (filled : req.addrs ≠ []) (enough : req.addrs.length ≤ fuel) (named : ∀ domain ∈ req.catchAllDomains, domain ≠ []) :
    (∀ tr q, Runs (screened find) (Probe fuel o req) () tr q () → ∀ addr ∈ recipientsIn tr, ¬ bad addr) ↔
      (∀ addr ∈ missed find req.addrs, ¬ bad addr) ∧
        ∀ domain ∈ req.openDomains fun addr => (find addr).1, ∀ nonce, ¬ bad (bogusFor nonce domain) := by
  constructor
  · intro never
    have strikes (nonce : Nonce) : ({ list := some find, nonce } : Host).strikes o = fun addr => (find addr).1 := by
      funext addr
      simp [Host.strikes, asks]
    refine ⟨fun addr member => ?_, fun domain member nonce => ?_⟩
    · obtain ⟨tr, q, run, voiced⟩ :=
        exists_voiced_run (o := o) (hosting_screens find ({} : Host).nonce) host filled enough
      have spared : addr ∈ ({ list := some find } : Host).spared o req.addrs := by
        rw [Host.spared, strikes]
        exact member
      exact never tr q run addr (mem_recipientsIn.mpr ⟨_, voiced.asked addr spared, rfl⟩)
    · obtain ⟨tr, q, run, voiced⟩ := exists_voiced_run (o := o) (hosting_screens find nonce) host filled enough
      have decoyed := voiced.decoyed domain (by rwa [strikes]) (named domain (openDomains_subset member))
      exact never tr q run _ (mem_recipientsIn.mpr ⟨_, decoyed, rfl⟩)
  · rintro ⟨addrs, domains⟩ tr q run addr member
    have fine : ∀ w e w', Step (openScope find o req) w e w' →
        ∀ command ∈ commandBy e.op, ∀ addr ∈ command.recipient, ¬ bad addr := by
      intro w e w' step command written addr asked
      rcases step.recipient command written addr asked with listed | ⟨domain, open_, nonce, rfl⟩
      · exact addrs addr listed
      · exact domains domain open_ nonce
    obtain ⟨command, written, asked⟩ := mem_recipientsIn.mp member
    obtain ⟨e, inside, by_⟩ := List.mem_flatMap.mp written
    exact (Probe_screened fine asks).run run e inside command by_ addr asked

end

end EmailVerifier.Prober
