import EmailVerifier.Relay.Queue

/-! Taking messages in and sending them out: `internal/relay/relay.go`. -/

set_option autoImplicit false

namespace EmailVerifier.Relay
open Text Semantics

/-- The options of a relay. An optional collaborator is a flag. -/
structure Options where
  queue : Queue
  domain : Str
  suppress : Bool := false
  health : Bool := false
  metrics : Bool := false
  helo : Str := []
  returnPath : Str → Str := id
  timeout : Int := 0
  retryBase : Int := 0
  network : Str := []

def new (o : Options) : Options :=
  { o with
    timeout := if o.timeout ≤ 0 then 60 * second else o.timeout
    retryBase := if o.retryBase ≤ 0 then 5 * 60 * second else o.retryBase
    network := if o.network = [] then lit "tcp4" else o.network }

def errNotSending : Err := ⟨lit "relay: not sending", [.notSending]⟩

-- `%w: …` with a reason after it.
def notSending (reason : Str) : Err := { errNotSending with text := errNotSending.text ++ lit ": " ++ reason }

def Options.record (o : Options) (outcome : String) : Act Unit :=
  if o.metrics then sent (lit outcome) else pure ()

/-- Fails closed: a list that is stale or cannot be read is a refusal. -/
def Options.suppressionAllows (o : Options) (addr : Str) : Act (Except Err Unit) := do
  if ¬ o.suppress then return .ok ()
  if ¬ (← enforcing) then return .ok ()
  if ← stale then
    return .error (notSending (lit "the suppression list is stale and sending cannot be taken back"))
  match ← suppressed addr with
  | .error err =>
    let refusal := notSending (lit "the suppression list is unreadable: " ++ err.text)
    return .error { refusal with is := refusal.is ++ err.is }
  | .ok (hit, reason) =>
    if hit then return .error ⟨lit "relay: address is suppressed: " ++ reason, []⟩
    return .ok ()

section
variable [Unicode] [Library]

/-- Returns once the message is durable, not once it is delivered. -/
def Options.Accept (o : Options) (m : Message) : Act (Except Err Str) := do
  match ← randomToken 18 with
  | .error err => return .error err
  | .ok id =>
    let messageID := id ++ lit "@" ++ o.domain
    match ← o.suppressionAllows m.to_ with
    | .error err => return .error err
    | .ok () =>
      match ← m.Build (← now) messageID with
      | .error err => return .error err
      | .ok (headers, body) =>
        match ← sign headers body with
        | .error err => return .error err
        | .ok signature =>
          let item : Item :=
            { id, mailFrom := o.returnPath id, rcptTo := addressOnly m.to_
              data := signature ++ render headers body, queued := ← now }
          match ← o.queue.Enqueue item with
          | .error err => return .error err
          | .ok () => return .ok messageID

def refusal (out : Outcome) : Str := lit (toString out.code) ++ lit " " ++ firstLine out.reply

def Options.conclude (o : Options) (item : Item) (mxHost : Str) (out : Outcome) : Act (Except Err Unit) := do
  if out.delivered then
    observe mxHost false
    o.record "delivered"
    o.queue.Done item.id
  else if out.permanent then
    observe mxHost false
    o.record "rejected"
    o.queue.Retry item o.retryBase (refusal out)
  else
    observe mxHost true
    o.record "deferred"
    o.queue.Retry item o.retryBase (if out.err = [] then refusal out else out.err)

def Options.deliver (o : Options) (item : Item) : Act (Except Err Unit) := do
  match ← o.suppressionAllows item.rcptTo with
  | .error _ =>
    o.record "suppressed"
    o.queue.Done item.id
  | .ok () =>
    let domain := domainOf item.rcptTo
    match ← mx domain with
    | .error _ | .ok [] =>
      o.record "no_mx"
      o.queue.Retry item o.retryBase (lit "no usable MX for " ++ domain)
    | .ok (mxHost :: _) =>
      match ← acquire mxHost domain with
      | .error err =>
        o.record "no_budget"
        o.queue.Retry item o.retryBase (lit "no budget: " ++ err.text)
      | .ok () =>
        match ← resolve mxHost with
        | .error _ | .ok [] =>
          o.record "guarded"
          o.queue.Retry item o.retryBase (lit "no vetted address for " ++ mxHost)
        | .ok (addr :: _) =>
          match ← dialContext o.network (joinHostPort addr (lit "25")) with
          | .error err =>
            observe mxHost true
            o.record "dial_failed"
            o.queue.Retry item o.retryBase err.text
          | .ok conn =>
            let out ← send conn
              { mxHost, helo := o.helo, mailFrom := item.mailFrom, rcptTo := item.rcptTo
                data := item.data, timeout := o.timeout }
            o.conclude item mxHost out

-- Whether this IP may send at all.
def Options.healthy (o : Options) : Act (Except Err Unit) := do
  if ¬ o.health then return .ok ()
  let (listed, reason) ← burned
  if listed then return .error (notSending (lit "the sending IP is listed: " ++ reason))
  let (paused, reason) ← sendingPaused
  if paused then return .error (notSending reason)
  return .ok ()

def Options.DeliverNext (o : Options) : Act (Bool × Except Err Unit) := do
  match ← o.healthy with
  | .error err => return (false, .error err)
  | .ok () =>
    match ← o.queue.Next with
    | .error err => return (false, .error err)
    | .ok none => return (false, .ok ())
    | .ok (some item) =>
      if o.metrics then
        let (ready, later, dead) ← o.queue.Depth
        queueDepth ready later dead
      return (true, ← o.deliver item)

end

end EmailVerifier.Relay
