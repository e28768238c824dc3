import EmailVerifier.Prober.Interface

/-! The decisions of a session that need no one else: option defaults, the
reading of single replies, and the text of what is sent. All of it is
`internal/prober/prober.go` and `reply.go`.
-/

set_option autoImplicit false

namespace EmailVerifier.Prober
open Text Data

namespace Options

def heloOr (o : Options) : Str := if o.helo ≠ [] then o.helo else lit "localhost"

def mailFromOr (o : Options) : Str := if o.mailFrom ≠ [] then o.mailFrom else lit "verify@localhost"

def timeoutOr (o : Options) : Nat := if o.timeout > 0 then o.timeout.toNat else 20 * second

def network (o : Options) : Str := if o.dialNetwork ≠ [] then o.dialNetwork else lit "tcp4"

def portOr (o : Options) : Str := if o.port ≠ [] then o.port else lit "25"

def deferralRetryOr (o : Options) : Nat :=
  if o.deferralRetry > 0 then o.deferralRetry.toNat else 15 * 60 * second

/-- The ceiling on consecutive policy replies for one request: clamped, and a
request for one is raised to two. -/
def policyStopFor (o : Options) (req : Request) : Int :=
  if req.policyStop ≤ 0 then o.policyStop
  else
    let want := if req.policyStop = 1 then 2 else req.policyStop
    let ceiling := if o.policyStopMax ≤ 0 then o.policyStop else o.policyStopMax
    if want > ceiling then ceiling else want

def catchAllProbesOr (o : Options) : Nat := if o.catchAllProbes > 0 then o.catchAllProbes.toNat else 2

def maxRCPT (o : Options) : Nat := if o.maxRCPTPerSession > 0 then o.maxRCPTPerSession.toNat else 50

def startTLSOn (o : Options) : Bool := o.startTLS ≠ lit "off"

def tlsHandshakeTimeoutOr (o : Options) : Nat :=
  if o.tlsHandshakeTimeout > 0 then o.tlsHandshakeTimeout.toNat else 10 * second

def identity (o : Options) : Identity where
  sourceIP := o.sourceIP
  helo := o.helo
  mailFromDomain := ((cut o.mailFrom 64).map Prod.snd).getD []

def paced (o : Options) : Bool := o.pacer ≠ .none

def leases (o : Options) : Bool := o.pacer = .leasing

def profiled (o : Options) : Bool := o.profiles ≠ .none

def counted (o : Options) (may : Recorder → Bool) : Bool := o.metrics.any may

lemma maxRCPT_pos (o : Options) : 0 < o.maxRCPT := by
  unfold maxRCPT
  split <;> omega

end Options

def teardownTimeout : Nat := 2 * second

def auditProbes : Nat := 3

def defaultReplyMaxChars : Int := 200

def Options.replyLimit (o : Options) : Int :=
  if o.replyMaxChars = 0 then defaultReplyMaxChars else o.replyMaxChars

def Request.heloFor (req : Request) (o : Options) : Str := if req.helo = [] then o.heloOr else req.helo

def Request.mailFromFor (req : Request) (o : Options) : Str :=
  if req.mailFrom = [] then o.mailFromOr else req.mailFrom

def bogusFor (nonce : Nonce) (domain : Str) : Str :=
  hexEncode nonce.val ++ lit "@" ++ trimSuffix domain (lit ".")

def budgetClass (err : Failure) : Class := if err.paused.isSome then .paused else .noBudget

def decideCatchAll (accepted answered : Nat) : CatchAllVerdict :=
  if answered = 0 then {}
  else if accepted = answered then { catchAll := some true, randomiser := some false }
  else if accepted = 0 then { catchAll := some false, randomiser := some false }
  else { catchAll := some true, randomiser := some true }

section
variable [Unicode]

/-- Whether an EHLO reply lists the extension. The first line is the greeting. -/
def advertisesSTARTTLS (ehlo : Str) : Bool :=
  (split 10 ehlo).tail.any fun line =>
    !(line.length < 5) && ((fields (line.drop 4)).head?.any fun word => equalFold word (lit "STARTTLS"))

/-- The class of a reply that refused the session before any RCPT: never a verdict. -/
def beforeRCPT (o : Options) (reply : Reply) : Class :=
  let c := classifyAs reply.code reply.text o.identity
  if c ≠ .valid ∧ c ≠ .invalid then c
  else if 500 ≤ reply.code ∧ reply.code ≤ 599 then .policy
  else .unknown

def rcptResult (code : Int) (text : Str) (deferralRetry : Nat) (id : Identity) : Result :=
  let cls := classifyAs code text id
  { connected := some true
    cls := cls
    smtpCode := code
    enhancedCode := enhancedCode text
    reply := text
    retryAfterSeconds := retryHint cls text deferralRetry
    accepted := match cls with
      | .valid => some true
      | .invalid => some false
      | _ => none }

/-- What `fail` records for every address. -/
def failure (o : Options) (cls : Class) (code : Int) (reply errText : Str) : Result where
  connected := some false
  cls := cls
  smtpCode := code
  enhancedCode := enhancedCode reply
  reply := reply
  err := errText
  retryAfterSeconds := retryHint cls reply o.deferralRetryOr

def applyRetryAfter (seconds : Nat) (r : Result) : Result :=
  if seconds = 0 then r else { r with retryAfterSeconds := seconds }

def budgetFailure (o : Options) (err : Failure) : Result :=
  applyRetryAfter (retryAfterFor err [] o.deferralRetryOr) (failure o (budgetClass err) 0 [] err.text)

lemma beforeRCPT_not_verdict (o : Options) (reply : Reply) : ¬ (beforeRCPT o reply).IsVerdict := by
  unfold beforeRCPT Class.IsVerdict
  simp only []
  split
  · rename_i neither
    simpa [not_or] using neither
  · split <;> simp

lemma beforeRCPT_isThrottle (o : Options) (reply : Reply) :
    (beforeRCPT o reply).isThrottle = (classifyAs reply.code reply.text o.identity).isThrottle := by
  unfold beforeRCPT
  dsimp only
  split
  · rfl
  · rename_i verdict
    have same : classifyAs reply.code reply.text o.identity = .valid ∨
        classifyAs reply.code reply.text o.identity = .invalid := by
      tauto
    rcases same with same | same <;> rw [same] <;> split <;> rfl

end

/-- Anything address-shaped removed, then cut to a number of runes. -/
def redactReply (s : Str) (limit : Int) : Str :=
  if s = [] then []
  else
    let word (f : Str) : Str := if f.contains 64 then lit "<redacted>" else f
    let out := ((fields s).map word).intersperse (lit " ") |>.flatten
    if limit ≤ 0 then out
    else if (runes out).length > limit.toNat then
      ((runes out).take limit.toNat).flatMap (fun r => encodeRune r.code) ++ lit "…"
    else out

end EmailVerifier.Prober
