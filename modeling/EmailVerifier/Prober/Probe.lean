import EmailVerifier.Prober.Session

/-! One request: `Prober.Probe`, `probe` and `probeDomains` with their helpers.

The session loop of a request over several domains pushes refused addresses back
onto the queue it drains. It carries fuel here; a run that is cut short by the fuel
returns `none`, which no run does that is given as much fuel as it has addresses.
Where Go ranges over a map the entries are taken in the table's order.
-/

set_option autoImplicit false

namespace EmailVerifier.Prober
open Text Data Semantics

def suppressedResult (reason : Str) : Result where
  connected := some false
  cls := .suppressed
  err := reason

/-- The loop of `unsuppressed`: the addresses that may be contacted, and a result
for each one that may not. -/
def sift (o : Options) : List Str → Results → Act (List Str × Results)
  | [], into => pure ([], into)
  | addr :: more, into => do
    match ← suppressed addr with
    | .error err => do
      -- A list that cannot be read stops nobody.
      notify o.onSuppressionError (.onSuppressionError err)
      let (allowed, into) ← sift o more into
      pure (addr :: allowed, into)
    | .ok (hit, reason) =>
      if hit then sift o more (into.insert addr (suppressedResult reason))
      else do
        let (allowed, into) ← sift o more into
        pure (addr :: allowed, into)

def unsuppressed (o : Options) (emails : List Str) (into : Results) : Act (List Str × Results) :=
  if o.suppress then do
    let enforced ← enforcing
    if enforced then sift o emails into else pure (emails, into)
  else pure (emails, into)

def replyEvent (o : Options) (host : Str) (r : Result) : ReplyEvent where
  mxHost := host
  cls := r.cls
  smtpCode := r.smtpCode
  enhancedCode := r.enhancedCode
  reply := redactReply r.reply o.replyLimit
  err := redactReply r.err o.replyLimit
  tls := r.tls

def blockedReason (r : Result) : Option Str :=
  match r.cls with
  | .guarded | .noBudget | .paused | .ipBurned | .suppressed => some r.cls.name
  | .policy => if hasPrefix r.err (lit "not attempted:") then some (lit "policy_stop") else none
  | _ => none

def record (o : Options) (host : Str) (r : Result) : Act Unit := do
  notify (o.onReply && r.cls.explains) (.onReply (replyEvent o host r))
  notify o.metrics.isSome (.count (.result r.cls))
  notify o.metrics.isSome (.count (.reply r.smtpCode r.cls))
  match blockedReason r with
  | some reason => notify o.metrics.isSome (.count (.blocked reason))
  | none => pure ()

def recordAll (o : Options) (host : Str) : List Result → Act Unit
  | [] => pure ()
  | r :: more => do
    record o host r
    recordAll o host more

/-- `IsRandomiser`, with no store as "not known". -/
def knownRandomiser (o : Options) (host : Str) : Act Bool :=
  if o.profiled then isRandomiser host else pure false

def CatchAllVerdict.decided (v : CatchAllVerdict) : Bool := v.catchAll.isSome || v.randomiser.isSome

def randomised : CatchAllVerdict where
  catchAll := some true
  randomiser := some true

def Result.stamp (v : CatchAllVerdict) (r : Result) : Result :=
  { r with catchAll := v.catchAll, randomiser := v.randomiser }

def stampAll (v : CatchAllVerdict) (out : Results) : Results :=
  if v.decided then out.mapVals fun _ r => r.stamp v else out

def markNew (o : Options) (host : Str) (found : Bool) : Act Unit :=
  if found && o.profiled then markRandomiser host else pure ()

def chunksWithin {A : Type} (n : Nat) : Nat → List A → List (List A)
  | 0, s => [s]
  | fuel + 1, s => if s.length > n then s.take n :: chunksWithin n fuel (s.drop n) else [s]

/-- Pieces of at most `n`, for a positive `n`. -/
def chunks {A : Type} (s : List A) (n : Nat) : List (List A) := chunksWithin n s.length s

section
variable [Unicode]

/-- The chunk loop of a single-domain request. Catch-all is asked until one session
has settled it. -/
def askChunks (o : Options) (req : Request) :
    List (List Str) → Results → CatchAllVerdict → Bool → Act (Results × CatchAllVerdict)
  | [], out, verdict, _ => pure (out, verdict)
  | chunk :: more, out, verdict, settled => do
    let probeCatchAll := req.needCatchAll && !settled
    let exit ← session o req
      [{ domain := req.domain, addrs := chunk, askCatchAll := probeCatchAll }] false
    let v := (exit.verdicts.lookup req.domain).getD {}
    let out := Table.overlay exit.results out
    if probeCatchAll && v.decided then askChunks o req more out v true
    else askChunks o req more out verdict settled

def probeSingle (o : Options) (req : Request) : Act Response := do
  let (emails, out) ← unsuppressed o req.emails ∅
  if emails = [] then do
    recordAll o req.mxHost (Table.vals out)
    pure { results := out }
  else do
    let known ← knownRandomiser o req.mxHost
    let (out, verdict) ←
      askChunks o req (chunks emails o.maxRCPT) out (if known then randomised else {}) known
    markNew o req.mxHost (verdict.randomiser = some true && !known)
    recordAll o req.mxHost (Table.vals (stampAll verdict out))
    pure { results := stampAll verdict out }

def domainKey (domain : Str) : Str := toLower (trimSuffix (trimSpace domain) (lit "."))

def emptyGroup (domain : Str) : DomainGroup where
  domain := domain
  emails := []
  needCatchAll := false

def DomainGroup.absorb (into g : DomainGroup) (fresh : List Str) : DomainGroup :=
  { into with needCatchAll := into.needCatchAll || g.needCatchAll, emails := into.emails ++ fresh }

def unseen : List Str → List Str → List Str
  | [], _ => []
  | e :: more, seen => if e ∈ seen then unseen more seen else e :: unseen more (e :: seen)

def absorbAt (d : Str) (g : DomainGroup) (fresh : List Str) (e : Str × DomainGroup) : Str × DomainGroup :=
  if e.1 = d then (e.1, e.2.absorb g fresh) else e

/-- The loop of `mergeGroups`: the merged groups so far with the key of each. -/
def mergeInto : List DomainGroup → List (Str × DomainGroup) → List Str → List (Str × DomainGroup)
  | [], out, _ => out
  | g :: more, out, seen =>
    let fresh := unseen g.emails seen
    let d := domainKey g.domain
    let out :=
      if out.any fun e => e.1 = d then
        out.map (absorbAt d g fresh)
      else out ++ [(d, (emptyGroup g.domain).absorb g fresh)]
    mergeInto more out (fresh ++ seen)

/-- Groups naming one domain folded into one, an address asked once. -/
def mergeGroups (groups : List DomainGroup) : List DomainGroup := (mergeInto groups [] []).map Prod.snd

def takeFitting (limit : Nat) : Nat → List SessionGroup → List SessionGroup × List SessionGroup
  | _, [] => ([], [])
  | total, g :: more =>
    if total + g.addrs.length ≤ limit then
      let taken := takeFitting limit (total + g.addrs.length) more
      (g :: taken.1, taken.2)
    else ([], g :: more)

def takeSession (queue : List SessionGroup) (limit : Nat) (grouped : Bool) :
    List SessionGroup × List SessionGroup :=
  match queue with
  | [] => ([], [])
  | first :: more =>
    if first.addrs.length > limit then
      ([{ domain := first.domain, addrs := first.addrs.take limit }],
        { domain := first.domain, addrs := first.addrs.drop limit } :: more)
    else if grouped then
      let taken := takeFitting limit first.addrs.length more
      (first :: taken.1, taken.2)
    else ([first], more)

/-- The loop of `regroup`, with the group being filled. -/
def regroupFor (domainOf : Table Str Str) : List Str → SessionGroup → List SessionGroup
  | [], open_ => [open_]
  | a :: more, open_ =>
    let d := (domainOf.lookup a).getD []
    if open_.domain = d then regroupFor domainOf more { open_ with addrs := open_.addrs ++ [a] }
    else open_ :: regroupFor domainOf more { domain := d, addrs := [a] }

def regroup (domainOf : Table Str Str) : List Str → List SessionGroup
  | [] => []
  | a :: more => regroupFor domainOf more { domain := (domainOf.lookup a).getD [], addrs := [a] }

/-- What `probeDomains` fixes before its session loop. -/
structure Domains where
  domainOf : Table Str Str := ∅
  need : Table Str Bool := ∅
  known : Bool := false

/-- What the session loop carries. -/
structure Tour where
  queue : List SessionGroup
  out : Results
  verdicts : Verdicts := ∅
  refused : Bool := false

/-- Suppression for every group, and the queue of what may be asked. -/
def enqueue (o : Options) : List DomainGroup → Results → Act (List SessionGroup × Results)
  | [], out => pure ([], out)
  | g :: more, out => do
    let (allowed, out) ← unsuppressed o g.emails out
    let (queue, out) ← enqueue o more out
    pure (if allowed = [] then queue else { domain := g.domain, addrs := allowed } :: queue, out)

def domainsOf (groups : List DomainGroup) : Table Str Str :=
  groups.foldl (fun m g => Table.setAll g.emails g.domain m) ∅

def needsOf (groups : List DomainGroup) : Table Str Bool :=
  groups.foldl (fun m g => m.insert g.domain g.needCatchAll) ∅

/-- Whether a group's session should settle its domain's catch-all question. -/
def Domains.wants (d : Domains) (verdicts : Verdicts) (domain : Str) : Bool :=
  (d.need.lookup domain).getD false && !d.known && (verdicts.lookup domain).isNone

def Domains.asking (d : Domains) (verdicts : Verdicts) (g : SessionGroup) : SessionGroup :=
  { g with askCatchAll := d.wants verdicts g.domain }

def settle (new old : Verdicts) : Verdicts :=
  new.entries.foldl (fun m e => if e.2.decided then m.insert e.1 e.2 else m) old

/-- One round: take a session's worth, hold it, queue what was refused. -/
def tourStep (o : Options) (req : Request) (d : Domains) (t : Tour) : Act Tour := do
  let family ← grouping o req.mxHost
  let taken := takeSession t.queue o.maxRCPT (family.2 && !t.refused)
  let batch := taken.1.map (d.asking t.verdicts)
  let sreq := { req with domain := (batch.head?.map SessionGroup.domain).getD [], domains := [] }
  let exit ← session o sreq batch (1 < batch.length)
  pure {
    queue := regroup d.domainOf exit.rest ++ taken.2
    out := Table.overlay exit.results t.out
    verdicts := settle exit.verdicts t.verdicts
    refused := t.refused || exit.rest ≠ [] }

def tour (o : Options) (req : Request) (d : Domains) : Nat → Tour → Act (Option Tour)
  | fuel, t =>
    if t.queue = [] then pure (some t)
    else match fuel with
      | 0 => pure none
      | fuel + 1 => do
        let t ← tourStep o req d t
        tour o req d fuel t

/-- The verdict that condemns every domain of the request, if there is one. -/
def condemnedBy (known : Bool) (verdicts : Verdicts) : Option CatchAllVerdict :=
  match verdicts.entries.find? fun e => e.2.randomiser = some true with
  | some e => some e.2
  | none => if known then some randomised else none

def stampDomains (d : Domains) (t : Tour) : Results :=
  let condemned := condemnedBy d.known t.verdicts
  t.out.mapVals fun addr r =>
    match condemned.or (t.verdicts.lookup ((d.domainOf.lookup addr).getD [])) with
    | some v => r.stamp v
    | none => r

def probeDomains (fuel : Nat) (o : Options) (req : Request) : Act (Option (Except Str Response)) := do
  let groups := mergeGroups req.domains
  let (queue, out) ← enqueue o groups ∅
  if queue = [] then
    if out.entries = [] then pure (some (.error (lit "prober: emails is empty")))
    else do
      recordAll o req.mxHost (Table.vals out)
      pure (some (.ok { results := out }))
  else do
    let known ← knownRandomiser o req.mxHost
    let d : Domains := { domainOf := domainsOf groups, need := needsOf groups, known := known }
    match ← tour o req d fuel { queue := queue, out := out } with
    | none => pure none
    | some t => do
      let found := t.verdicts.entries.any fun e => e.2.randomiser = some true
      markNew o req.mxHost (found && !known)
      recordAll o req.mxHost (Table.vals (stampDomains d t))
      pure (some (.ok { results := stampDomains d t }))

/-- `probe`: everything but the system fields. -/
def probe (fuel : Nat) (o : Options) (req : Request) : Act (Option (Except Str Response)) :=
  if req.mxHost = [] then pure (some (.error (lit "prober: mx_host is required")))
  else if req.domains ≠ [] then probeDomains fuel o req
  else if req.emails = [] then pure (some (.error (lit "prober: emails is empty")))
  else do
    let response ← probeSingle o req
    pure (some (.ok response))

/-- `Probe`: one MX asked about every address of the request. -/
def Probe (fuel : Nat) (o : Options) (req : Request) : Act (Option (Except Str Response)) := do
  match ← probe fuel o req with
  | some (.ok response) => do
    let (family, ok) ← grouping o req.mxHost
    pure (some (.ok { response with paceKey := family, multiDomain := ok }))
  | other => pure other

end

end EmailVerifier.Prober
