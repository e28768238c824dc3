import EmailVerifier.Api.Answers
import EmailVerifier.Prober.Wording

/-! Whether a refusal of this node is recognised by the names it used.

The classifier is told the names in the configuration. A session greets with the name of
the request if it has one and with a default where the configuration has none, and the
address the connection comes from is whatever the machine gave it.
-/

set_option autoImplicit false

namespace EmailVerifier.Api
open Text Data Semantics Prober

/-- What follows the first `@` of an envelope sender. -/
def senderDomain (sender : Str) : Str := ((cut sender 64).map Prod.snd).getD []

def announced : Event calls → Option Str
  | ⟨.write _ (.ehlo name), _⟩ => some name
  | ⟨.write _ (.mailFrom sender), _⟩ => some (senderDomain sender)
  | _ => none

lemma Step.announced {c : Scope} {w w' : Watch} {e : Event calls} (step : Step c w e w') :
    ∀ name, Api.announced e = some name → name = c.helo ∨ name = senderDomain c.sender := by
  intro name is
  cases step with
  | write _ sends =>
    cases sends with
    | ehlo _ => exact .inl (Option.some.inj is).symm
    | mailFrom _ => exact .inr (Option.some.inj is).symm
    | _ => cases is
  | bye _ _ which => rcases which with rfl | rfl <;> cases is
  | aside aside =>
    rename_i o a
    cases o <;> first | cases is | cases aside
  | _ => cases is

section
variable [Unicode] {r : ProbeRequest} {maxEmails : Int} {o : Options} {fuel : Nat} {S : Type} {W : World calls S}
  {s t : S} {tr : Trace calls} {found : Option (Except Str Response)}

lemma Probe_announced {req : Request} {q : Prog calls (Option (Except Str Response))} {name : Str}
    (run : Runs W (Probe fuel o req) s tr q t) (used : name ∈ tr.filterMap announced) :
    name = req.heloFor o ∨ name = senderDomain (req.mailFromFor o) := by
  obtain ⟨e, member, is⟩ := List.mem_filterMap.mp used
  have upheld := (Probe_follows fuel o req).upholds (W := W) (s := s)
    (P := fun e => ∀ name, announced e = some name → name = req.heloFor o ∨ name = senderDomain (req.mailFromFor o))
    fun _ _ _ step => Step.announced step
  exact upheld.run run e member name is

/-- A permanent refusal that has the name in it and nothing about the recipient. -/
structure RefusesBy (name : Str) (reply : Reply) : Prop where
  permanent : 500 ≤ reply.code ∧ reply.code ≤ 599
  sequence : reply.code ≠ 503
  named : toLower (trimSpace name) ≠ [] ∧ WholeToken (toLower reply.text) (toLower (trimSpace name))
  hints : hasAny (toLower reply.text) mailboxHints = false
  prompt : greyWorded (toLower reply.text) = false
  addressing : subject (enhancedCode (toLower reply.text)) ≠ 1
  mailbox : subject (enhancedCode (toLower reply.text)) ≠ 2

/-- What makes an answer one about us: a further domain refused as relay, a name of the
configuration, the wording, the enhanced code, or a limit on our sending. -/
def ReadAsOurs (o : Options) (h : Heard) : Prop :=
  let t := toLower h.reply.text
  h.relay = true ∨ enhancedCode t ∈ senderCodes ∨ hasAny t senderHints = true ∨ o.identity.Names t ∨
    subject (enhancedCode t) = 4 ∨ subject (enhancedCode t) = 7 ∨
    overQuotaRe.isMatch t = true ∧ sendingQuotaRe.isMatch t = true ∧ enhancedCode t = []

lemma RefusesBy.policy_iff {name : Str} {h : Heard} (refusal : RefusesBy name h.reply) :
    (h.result o).cls = .policy ↔ ReadAsOurs o h := by
  unfold Heard.result answerResult ReadAsOurs
  cases relay : h.relay with
  | true => simp
  | false =>
    have read : (rcptResult h.reply.code h.reply.text o.deferralRetryOr o.identity).cls = _ :=
      classifyAs_permanent refusal.permanent refusal.sequence refusal.prompt
    rw [if_neg Bool.false_ne_true, read, classifyPermanent_eq, refusal.hints,
      permanentBy_policy refusal.addressing refusal.mailbox, blamesSender_iff]
    simp only [Bool.false_eq_true, false_or, or_assoc, refusal.addressing, refusal.mailbox, ne_eq, not_false_eq_true,
      and_true]

/-- A refusal that has a name in it that this run used, or the address it came from, is
booked as one of us exactly when the classifier knows: always where the names used are
those of the configuration. -/
theorem own_names_recognised_iff {h : Heard} {source name : Str} (accepted : r.validate maxEmails = .ok ())
    (enough : r.toRequest.addrs.length ≤ fuel) (run : Runs W (Probe fuel o r.toRequest) s tr (.done found) t)
    (once : r.domains = none → (r.emails.getD []).count h.addr = 1)
    (heard : h ∈ (booksOf o r.toRequest tr).heard) (answer : h.limit = false)
    (used : name ∈ source :: tr.filterMap announced) (refusal : RefusesBy name h.reply) :
    ∃ response res, found = some (.ok response) ∧ response.results.lookup h.addr = some res ∧
      (res.cls = .policy ↔ ReadAsOurs o h) ∧
      (source = o.sourceIP → r.helo = [] → r.mailFrom = [] → o.helo ≠ [] → o.mailFrom ≠ [] → res.cls = .policy) := by
  obtain ⟨response, res, ended, looked, same⟩ := answer_booked accepted enough run once heard answer
  refine ⟨response, res, ended, looked, same.cls ▸ refusal.policy_iff, ?_⟩
  intro bound noHelo noSender helo sender
  rw [same.cls, refusal.policy_iff]
  refine .inr (.inr (.inr (.inl ⟨name, ?_, refusal.named⟩)))
  have greets : r.toRequest.heloFor o = o.helo := by
    simp [Request.heloFor, ProbeRequest.toRequest, noHelo, Options.heloOr, helo]
  have sends : r.toRequest.mailFromFor o = o.mailFrom := by
    simp [Request.mailFromFor, ProbeRequest.toRequest, noSender, Options.mailFromOr, sender]
  rcases List.mem_cons.mp used with rfl | used
  · simp [Options.identity, bound]
  · rcases Probe_announced run used with rfl | rfl
    · simp [Options.identity, greets]
    · simp [Options.identity, sends, senderDomain]

end

def refusingUs : Reply where
  code := 550
  text := lit "550 h.io"

def refusingRecipients (sent : List Command) : Reply :=
  if sent.getLast?.any isRcpt then refusingUs else hospitable sent

lemma refusingRecipients_formed (sent : List Command) : (refusingRecipients sent).Formed := by
  unfold refusingRecipients
  split
  · exact ⟨lit "550 h.io\r\n", [], by decide +kernel⟩
  · exact hospitable_formed sent

lemma refusingUs_refuses : RefusesBy (lit "h.io") refusingUs where
  permanent := by decide
  sequence := by decide
  named := ⟨by decide, (containsToken_iff (by decide)).mp (by decide +kernel)⟩
  hints := by decide +kernel
  prompt := by decide +kernel
  addressing := by decide +kernel
  mailbox := by decide +kernel

def namedNode : Options where
  helo := lit "h.io"
  mailFrom := lit "v@h.io"
  sourceIP := lit "192.0.2.9"

def namedRequest : ProbeRequest := { plainRequest with helo := lit "h.io" }

/-- The configured name is recognised. -/
theorem namedNode_recognised : ∃ tr response res,
    Runs anyone (Probe 1 namedNode plainRequest.toRequest) () tr (.done (some (.ok response))) () ∧
    response.results.lookup (lit "a@b") = some res ∧ res.cls = .policy := by
  have run := play_anyone (replying_readable refusingRecipients_formed) (Probe 1 namedNode plainRequest.toRequest) []
  have heard : ⟨lit "a@b", refusingUs, false⟩ ∈ (booksOf namedNode plainRequest.toRequest
      ((Probe 1 namedNode plainRequest.toRequest).play (replying refusingRecipients) []).1).heard := by
    decide +kernel
  have used : lit "h.io" ∈ lit "192.0.2.9" :: List.filterMap announced
      ((Probe 1 namedNode plainRequest.toRequest).play (replying refusingRecipients) []).1 := by
    decide +kernel
  have accepted : plainRequest.validate 10 = .ok () := by decide
  obtain ⟨response, res, ended, looked, -, policy⟩ := own_names_recognised_iff accepted (by decide) run (by decide)
    heard (by decide +kernel) used refusingUs_refuses
  exact ⟨_, response, res, ended ▸ run, looked, policy rfl rfl rfl (by decide) (by decide)⟩

/-- The name the request greeted with is not: the refusal of it condemns the address. -/
theorem namedRequest_unrecognised : namedRequest.validate 10 = .ok () ∧ ∃ tr response h res,
    Runs anyone (Probe 1 {} namedRequest.toRequest) () tr (.done (some (.ok response))) () ∧
    h ∈ (booksOf {} namedRequest.toRequest tr).heard ∧ h.limit = false ∧ lit "h.io" ∈ tr.filterMap announced ∧
    RefusesBy (lit "h.io") h.reply ∧ response.results.lookup h.addr = some res ∧ res.cls = .invalid := by
  have run := play_anyone (replying_readable refusingRecipients_formed) (Probe 1 {} namedRequest.toRequest) []
  have heard : ⟨lit "a@b", refusingUs, false⟩ ∈ (booksOf {} namedRequest.toRequest
      ((Probe 1 {} namedRequest.toRequest).play (replying refusingRecipients) []).1).heard := by
    decide +kernel
  have used : lit "h.io" ∈ List.filterMap announced
      ((Probe 1 {} namedRequest.toRequest).play (replying refusingRecipients) []).1 := by
    decide +kernel
  have accepted : namedRequest.validate 10 = .ok () := by decide
  obtain ⟨response, res, ended, looked, same⟩ := answer_booked accepted (by decide) run (by decide) heard
    (by decide +kernel)
  exact ⟨accepted, _, response, _, res, ended ▸ run, heard, by decide +kernel, used, refusingUs_refuses, looked,
    same.cls.trans (by decide +kernel)⟩

end EmailVerifier.Api
