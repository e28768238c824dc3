import EmailVerifier.Text.Pattern

/-! What one SMTP reply means: `internal/prober/classify.go` and the parts of
`prober.go` that read a reply's wording.

The order of the tests is the source's. Every prose list and expression is read
against the lower-cased text, except the two of `prober.go`, which fold case.
-/

set_option autoImplicit false

namespace EmailVerifier.Prober
open Text

/-- The classes of a reply. `unset` is the zero value, the empty string. -/
inductive Class where
  | unset
  | valid
  | invalid
  | deferred
  | throttled
  | timeout
  | connError
  | badSequence
  | policy
  | guarded
  | noBudget
  | paused
  | ipBurned
  | suppressed
  | tlsFailed
  | unknown
  deriving DecidableEq, Repr

namespace Class

def name : Class → Str
  | unset => []
  | valid => lit "valid"
  | invalid => lit "invalid"
  | deferred => lit "deferred"
  | throttled => lit "throttled"
  | timeout => lit "timeout"
  | connError => lit "conn_error"
  | badSequence => lit "bad_sequence"
  | policy => lit "policy"
  | guarded => lit "guarded"
  | noBudget => lit "no_budget"
  | paused => lit "paused"
  | ipBurned => lit "ip_burned"
  | suppressed => lit "suppressed"
  | tlsFailed => lit "tls_failed"
  | unknown => lit "unknown"

def isThrottle : Class → Bool
  | throttled | timeout | connError => true
  | _ => false

def explains : Class → Bool
  | valid | invalid => false
  | _ => true

/-- The two classes that say something about a mailbox. -/
def IsVerdict (c : Class) : Prop := c = valid ∨ c = invalid

instance (c : Class) : Decidable c.IsVerdict := inferInstanceAs (Decidable (_ ∨ _))

end Class

def throttleHints : List Str := [
  "too many", "rate limit", "ratelimit", "throttl", "exceeded", "unusual", "deferred",
  "try again later", "slow down", "reputation", "4.7.650", "too much mail", "connection limit",
  "temporarily deferred", "blocked", "blacklist", "spamhaus", "not accepted from your ip"].map lit

def senderHints : List Str := [
  "reverse dns", "rdns", "fcrdns", "forward-confirmed", "ptr record", "access denied",
  "your mail from", "client host", "helo command", "not authorized", "dkim", "dmarc",
  "spf check", "spf record", "i=ip", "blocked", "blacklist", "spamhaus", "reputation",
  "not accepted from your ip", "unsolicited", "bad reputation", "sender address",
  "sender verify", "sender rejected", "sender domain", "amount of spam", "spam we are receiving",
  "spamaufkommen", "rbl.", "dnsbl", "blocklist", "block list", "black list", "starttls",
  "tls connection is required", "tls is required", "tls required", "requires tls",
  "session encryption is required", "encryption is required", "tls encryption", "must use tls",
  "encryption required", "encryption needed", "requires encryption", "listed as abusive",
  "magicspam", "abusix", "uceprotect", "spamcop", "you are listed", "sender ip"].map lit

def mailboxHints : List Str := [
  "no such user", "user unknown", "unknown user", "does not exist", "doesn't exist",
  "no such recipient", "recipient not found", "mailbox unavailable", "mailbox not found",
  "invalid recipient", "user not found", "address does not exist", "no mailbox", "undeliverable",
  "address rejected: user", "recipient rejected"].map lit

def senderCodes : List Str :=
  ["5.1.7", "5.1.8", "5.7.23", "5.7.24", "5.7.25", "5.7.26", "5.7.27"].map lit

/-- `^[245]\d{2}[ -]\s*([245]\.\d{1,3}\.\d{1,3})\b` -/
def enhancedRe : Pattern :=
  let kind := Pattern.words false ["2", "4", "5"]
  let number := Pattern.times true 1 (some 3) .digit
  .inOrder [.textStart, kind, .digit, .digit, .words false [" ", "-"], .times true 0 none .space,
    .group 1 (.inOrder [kind, .word false ".", number, .word false ".", number]), .wordBoundary]

/-- `over ?quota|quota exceeded|exceeded (its |the |his |her |their )?(storage|quota)|…` -/
def overQuotaRe : Pattern :=
  .anyOf [
    .inOrder [.word false "over", .optional (.word false " "), .word false "quota"],
    .word false "quota exceeded",
    .inOrder [.word false "exceeded ", .optional (.words false ["its ", "the ", "his ", "her ", "their "]),
      .words false ["storage", "quota"]],
    .inOrder [.word false "mailbox ", .optional (.word false "is "), .word false "full"],
    .word false "storage allocation",
    .word false "disk quota",
    .inOrder [.word false "insufficient ", .optional (.word false "system "), .word false "storage"],
    .word false "mailbox size limit"]

/-- `send|sent|outbound|rate|per (hour|day|minute)|messages per` -/
def sendingQuotaRe : Pattern :=
  .anyOf [.word false "send", .word false "sent", .word false "outbound", .word false "rate",
    .inOrder [.word false "per ", .words false ["hour", "day", "minute"]], .word false "messages per"]

/-- `starttls|(^|[^a-z0-9])tls([^a-z0-9]|$)|encryption` -/
def tlsRe : Pattern :=
  let other := Pattern.one fun r => !(isDigit r || (97 ≤ r && r ≤ 122))
  .anyOf [.word false "starttls",
    .inOrder [.alt .textStart other, .word false "tls", .alt other .textEnd], .word false "encryption"]

/-- `relay(ing)? (access )?(denied|…)|unable to relay|…|5\.7\.64`, case folded. -/
def relayRe : Pattern :=
  .anyOf [
    .inOrder [.word true "relay", .optional (.word true "ing"), .word true " ",
      .optional (.word true "access "), .words true ["denied", "not permitted", "not allowed", "prohibited"]],
    .word true "unable to relay", .word true "not permitted to relay", .word true "we do not relay",
    .word true "5.7.64"]

/-- `multiple destination domains|too many (destination |recipient )?domains`, case folded. -/
def domainLimitRe : Pattern :=
  .anyOf [.word true "multiple destination domains",
    .inOrder [.word true "too many ", .optional (.words true ["destination ", "recipient "]),
      .word true "domains"]]

/-- The RFC 3463 status code leading a reply, or the empty string. -/
def enhancedCode (reply : Str) : Str :=
  match enhancedRe.find (trimSpace reply) with
  | none => []
  | some found => found.captured 1

def codePart (place : Nat) (ec : Str) : Int :=
  let parts := split 46 ec
  if parts.length ≠ 3 then -1 else (atoi (parts.getD place [])).getD (-1)

def subject (ec : Str) : Int := codePart 1 ec

def detail (ec : Str) : Int := codePart 2 ec

def hasAny (t : Str) (hints : List Str) : Bool := hints.any fun h => contains t h

/-- Who this node is on the wire. -/
structure Identity where
  sourceIP : Str
  helo : Str
  mailFromDomain : Str
  deriving DecidableEq, Repr

def tokenByte (b : UInt8) : Bool :=
  (97 ≤ b && b ≤ 122) || (48 ≤ b && b ≤ 57) || b = 45 || b = 95

/-- The search of `containsToken`, from one position on. Each round moves past the
start of the last occurrence, so the length of the text bounds the rounds. -/
def containsTokenFrom (t tok : Str) : Nat → Nat → Bool
  | 0, _ => false
  | fuel + 1, start =>
    match index (t.drop start) tok with
    | none => false
    | some i =>
      let first := start + i
      let stop := first + tok.length
      let before := first = 0 || (t[first - 1]?.any fun b => !tokenByte b && b != 46)
      let after := stop = t.length || (t[stop]?.any fun b => !tokenByte b &&
        (b != 46 || stop + 1 = t.length || (t[stop + 1]?.any fun b => !tokenByte b)))
      if before && after then true else containsTokenFrom t tok fuel (first + 1)

def containsToken (t tok : Str) : Bool := containsTokenFrom t tok (t.length + 1) 0

section
variable [Unicode]

def Identity.tokens (id : Identity) : List Str :=
  ([id.sourceIP, id.helo, id.mailFromDomain].map fun v => toLower (trimSpace v)).filter (· ≠ [])

def Identity.namedIn (id : Identity) (t : Str) : Bool := id.tokens.any fun tok => containsToken t tok

def classifyPermanent (t : Str) (id : Identity) : Class :=
  let ec := enhancedCode t
  let mailbox := hasAny t mailboxHints
  let named := id.namedIn t && subject ec ≠ 1 && subject ec ≠ 2
  let sender := hasAny t senderHints || named
  let sending := sendingQuotaRe.isMatch t
  let overQuota := overQuotaRe.isMatch t
  if senderCodes.contains ec then .policy
  else if sender && !mailbox then .policy
  else if overQuota && sending && (ec = [] || subject ec = 7) then .policy
  else if overQuota && !sending && (ec = [] || subject ec = 2) then .valid
  else if subject ec = 1 then .invalid
  else if subject ec = 2 then (if detail ec = 2 then .valid else .invalid)
  else if subject ec = 4 || subject ec = 7 then (if mailbox then .invalid else .policy)
  -- Subjects 3, 5 and 6 and a reply without a code fall back to the wording alike.
  else if mailbox then .invalid
  else if sender then .policy
  else .invalid

/-- One reply, one class. The range check comes first, then greylisting. -/
def classifyAs (code : Int) (text : Str) (id : Identity) : Class :=
  if code < 200 ∨ code > 599 then .unknown
  else
    let t := toLower text
    if contains t (lit "greylist") || contains t (lit "grey list") then .deferred
    else if 400 ≤ code ∧ code < 500 ∧ tlsRe.isMatch t then .policy
    else if code = 421 then .throttled
    else if code = 503 then .badSequence
    else if 200 ≤ code ∧ code < 300 then .valid
    else if 400 ≤ code ∧ code < 500 then (if hasAny t throttleHints then .throttled else .deferred)
    else if code < 400 then .unknown
    else classifyPermanent t id

def classify (code : Int) (text : Str) : Class := classifyAs code text ⟨[], [], []⟩

omit [Unicode] in
lemma mem_ite {classes : List Class} {p : Prop} [Decidable p] {c c' : Class} (yes : c ∈ classes) (no : c' ∈ classes) :
    (if p then c else c') ∈ classes := by
  split
  · exact yes
  · exact no

lemma classifyPermanent_mem (t : Str) (id : Identity) : classifyPermanent t id ∈ [Class.valid, .invalid, .policy] := by
  have valid : Class.valid ∈ [Class.valid, .invalid, .policy] := by decide
  have invalid : Class.invalid ∈ [Class.valid, .invalid, .policy] := by decide
  have policy : Class.policy ∈ [Class.valid, .invalid, .policy] := by decide
  exact mem_ite policy <| mem_ite policy <| mem_ite policy <| mem_ite valid <| mem_ite invalid <|
    mem_ite (mem_ite valid invalid) <| mem_ite (mem_ite invalid policy) <| mem_ite invalid <| mem_ite policy invalid

end

/-- What this code can see of a Go error: its text, whether it is a network
timeout, whether the resolver's guard raised it, and for a paused MX how long the
pause still lasts in nanoseconds. -/
structure Failure where
  text : Str
  timeout : Bool := false
  guarded : Bool := false
  paused : Option Nat := none
  deriving DecidableEq, Repr

def classifyNetErr (err : Failure) : Class := if err.timeout then .timeout else .connError

def relayRefusal (code : Int) (text : Str) : Bool := 400 ≤ code && relayRe.isMatch text

/-- A further domain refused as one too many; a bare 4.3.0 counts. -/
def domainLimitRefusal (code : Int) (text : Str) : Bool :=
  400 ≤ code && (domainLimitRe.isMatch text || (code < 500 && enhancedCode text = lit "4.3.0"))

end EmailVerifier.Prober
