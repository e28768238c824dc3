import EmailVerifier.Data.Ranging
import EmailVerifier.Prober.Chronicle
import EmailVerifier.Semantics.Alike

/-! The catch-all verdicts on the results of a request about several domains.

`probeDomains` ranges over maps. Here it takes the order of every such loop as an
argument, and hands out what its sessions returned beside its answer. Whatever the orders,
it performs the same operations and answers the same up to the last loop, which records
the results one by one; and each result carries the verdict of its own domain, or the one
that condemns the host.
-/

set_option autoImplicit false

namespace EmailVerifier.Prober
open Text Data Semantics

/-- The orders of the loops over maps: those after each session by its number, and those
over all verdicts and results at the end. -/
structure Walk where
  results : Nat → Order Str Result
  verdicts : Nat → Order Str CatchAllVerdict
  condemning : Order Str CatchAllVerdict
  stamping : Order Str Result
  recording : Order Str Result

def Walk.plain : Walk where
  results _ := .backward
  verdicts _ := .forward
  condemning := .forward
  stamping := .forward
  recording := .forward

/-- What the store said of the host, if it was asked, and what the sessions returned. -/
structure Report where
  known : Option Bool := none
  exits : List Exit := []

structure Logged extends Tour where
  exits : List Exit := []

def settleIn (new : List (Sigma fun _ : Str => CatchAllVerdict)) (old : Verdicts) : Verdicts :=
  new.foldl (fun m e => if e.2.decided then m.insert e.1 e.2 else m) old

def firstRandomiser (verdicts : List (Sigma fun _ : Str => CatchAllVerdict)) : Option CatchAllVerdict :=
  (verdicts.find? fun e => e.2.randomiser = some true).map Sigma.snd

/-- The verdict that condemns every domain of the request, if there is one. -/
def condemnedIn (known : Bool) (verdicts : List (Sigma fun _ : Str => CatchAllVerdict)) : Option CatchAllVerdict :=
  (firstRandomiser verdicts).or (if known then some randomised else none)

def stampFor (d : Domains) (verdicts : Verdicts) (condemned : Option CatchAllVerdict) (addr : Str) (r : Result) :
    Option Result :=
  (condemned.or (verdicts.lookup ((d.domainOf.lookup addr).getD []))).map r.stamp

section
variable [Unicode]

def tourStepIn (walk : Walk) (o : Options) (req : Request) (d : Domains) (l : Logged) : Act Logged := do
  let family ← grouping o req.mxHost
  let taken := takeSession l.queue o.maxRCPT (family.2 && !l.refused)
  let batch := taken.1.map (d.asking l.verdicts)
  let sreq := { req with domain := (batch.head?.map SessionGroup.domain).getD [], domains := [] }
  let exit ← session o sreq batch (1 < batch.length)
  pure {
    queue := regroup d.domainOf exit.rest ++ taken.2
    out := Table.assign ((walk.results l.exits.length).of exit.results) l.out
    verdicts := settleIn ((walk.verdicts l.exits.length).of exit.verdicts) l.verdicts
    refused := l.refused || exit.rest ≠ []
    exits := l.exits ++ [exit] }

def tourIn (walk : Walk) (o : Options) (req : Request) (d : Domains) : Nat → Logged → Act (Option Logged)
  | fuel, l =>
    if l.queue = [] then pure (some l)
    else match fuel with
      | 0 => pure none
      | fuel + 1 => do
        let l ← tourStepIn walk o req d l
        tourIn walk o req d fuel l

/-- The end of the session loop: mark the host if it was found out, and stamp the results. -/
def stampIn (walk : Walk) (o : Options) (req : Request) (d : Domains) :
    Option Logged → Act (Option (Except Str (Results × Report)))
  | none => pure none
  | some l => do
    let verdicts := walk.condemning.of l.verdicts
    markNew o req.mxHost ((firstRandomiser verdicts).isSome && !d.known)
    let out := Table.revise (stampFor d l.verdicts (condemnedIn d.known verdicts)) (walk.stamping.of l.out) l.out
    pure (some (.ok (out, { known := some d.known, exits := l.exits })))

/-- `probeDomains` up to the recording of the results. -/
def answerIn (walk : Walk) (fuel : Nat) (o : Options) (req : Request) :
    Act (Option (Except Str (Results × Report))) := do
  let groups := mergeGroups req.domains
  let (queue, out) ← enqueue o groups ∅
  if queue = [] then
    if out.entries = [] then pure (some (.error (lit "prober: emails is empty")))
    else pure (some (.ok (out, {})))
  else do
    let known ← knownRandomiser o req.mxHost
    let d : Domains := { domainOf := domainsOf groups, need := needsOf groups, known := known }
    let last ← tourIn walk o req d fuel { queue := queue, out := out }
    stampIn walk o req d last

def recordIn (order : Order Str Result) (o : Options) (req : Request) :
    Option (Except Str (Results × Report)) → Act (Option (Except Str Response))
  | some (.ok (out, _)) => do
    recordAll o req.mxHost ((order.of out).map Sigma.snd)
    pure (some (.ok { results := out }))
  | some (.error err) => pure (some (.error err))
  | none => pure none

/-- `probeDomains` with its loops over maps in the given orders. -/
def probeDomainsIn (walk : Walk) (fuel : Nat) (o : Options) (req : Request) : Act (Option (Except Str Response)) :=
  answerIn walk fuel o req >>= recordIn walk.recording o req

end

lemma firstRandomiser_isSome (verdicts : List (Sigma fun _ : Str => CatchAllVerdict)) :
    (firstRandomiser verdicts).isSome = verdicts.any fun e => e.2.randomiser = some true := by
  rw [firstRandomiser, Option.isSome_map, List.isSome_find?]

lemma condemnedBy_eq (known : Bool) (verdicts : Verdicts) :
    condemnedBy known verdicts = condemnedIn known verdicts.entries := by
  unfold condemnedBy condemnedIn firstRandomiser
  cases verdicts.entries.find? fun e => e.2.randomiser = some true <;> rfl

lemma stampDomains_revise (d : Domains) (t : Tour) (order : Order Str Result) :
    Table.revise (stampFor d t.verdicts (condemnedBy d.known t.verdicts)) (order.of t.out) t.out = stampDomains d t := by
  rw [Table.revise_of, stampDomains]
  refine Table.mapVals_congr fun e _ => ?_
  unfold stampFor
  cases (condemnedBy d.known t.verdicts).or _ <;> rfl

lemma lookup_settleIn (order : Order Str CatchAllVerdict) (new old : Verdicts) (domain : Str) :
    (settleIn (order.of new) old).lookup domain = resettle new (fun domain => old.lookup domain) domain := by
  unfold settleIn resettle
  rw [settle_entries _ (order.nodupKeys new), order.dlookup]

def Established (exits : List Exit) (domain : Str) (v : CatchAllVerdict) : Prop :=
  ∃ exit ∈ exits, exit.verdicts.lookup domain = some v ∧ v.decided = true

lemma Judged.settleIn {new old : Verdicts} (order : Order Str CatchAllVerdict) (later : Judged new) (before : Judged old) :
    Judged (settleIn (order.of new) old) := by
  intro domain v found
  rw [lookup_settleIn, resettle] at found
  split at found
  · rename_i w looked
    split at found
    · cases found
      exact later domain v looked
    · exact before domain v found
  · exact before domain v found

lemma settleIn_established {exits : List Exit} {exit : Exit} {verdicts : Verdicts} (order : Order Str CatchAllVerdict)
    (settled : ∀ domain v, verdicts.lookup domain = some v ↔ Established exits domain v)
    (fresh : ∀ domain v, exit.verdicts.lookup domain = some v → verdicts.lookup domain = none) (domain : Str)
    (v : CatchAllVerdict) :
    (settleIn (order.of exit.verdicts) verdicts).lookup domain = some v ↔ Established (exits ++ [exit]) domain v := by
  have added : Established (exits ++ [exit]) domain v ↔
      verdicts.lookup domain = some v ∨ exit.verdicts.lookup domain = some v ∧ v.decided = true := by
    rw [settled]
    simp [Established, or_and_right, exists_or]
  rw [added, lookup_settleIn, resettle]
  split
  · rename_i w looked
    rw [fresh domain w looked, looked]
    by_cases decided : w.decided = true
    · simp only [decided, if_true, Option.some.injEq, reduceCtorEq, false_or]
      constructor
      · rintro rfl
        exact ⟨rfl, decided⟩
      · exact fun both => both.1
    · simp only [decided, Bool.false_eq_true, if_false, Option.some.injEq, reduceCtorEq, false_or, false_iff]
      rintro ⟨rfl, yes⟩
      exact decided yes
  · rename_i missing
    simp [missing]

lemma decideCatchAll_randomiser {accepted answered : Nat}
    (shown : (decideCatchAll accepted answered).randomiser = some true) : decideCatchAll accepted answered = randomised := by
  unfold decideCatchAll at shown ⊢
  split_ifs at shown ⊢
  · cases shown
  · cases shown
  · rfl

lemma firstRandomiser_of {verdicts : Verdicts} (order : Order Str CatchAllVerdict) (judged : Judged verdicts) :
    (∃ domain v, verdicts.lookup domain = some v ∧ v.randomiser = some true) ∧
        firstRandomiser (order.of verdicts) = some randomised ∨
      (∀ domain v, verdicts.lookup domain = some v → v.randomiser ≠ some true) ∧
        firstRandomiser (order.of verdicts) = none := by
  unfold firstRandomiser
  cases first : (order.of verdicts).find? fun e => e.2.randomiser = some true with
  | some e =>
    obtain ⟨domain, v⟩ := e
    have shown : v.randomiser = some true := by simpa using List.find?_some first
    have found := Order.mem_iff.mp (List.mem_of_find?_eq_some first)
    obtain ⟨accepted, answered, rfl⟩ := judged domain v found
    refine .inl ⟨⟨domain, _, found, shown⟩, ?_⟩
    rw [Option.map_some, decideCatchAll_randomiser shown]
  | none =>
    refine .inr ⟨fun domain v found => ?_, rfl⟩
    simpa using List.find?_eq_none.mp first _ (Order.mem_iff.mpr found)

section
variable [Unicode] {walk walk' : Walk} {o : Options} {req : Request} {d : Domains} {fuel : Nat}

lemma tourStepIn_plain (l : Logged) : Logged.toTour <$> tourStepIn .plain o req d l = tourStep o req d l.toTour := by
  unfold tourStepIn tourStep
  simp only [map_bind, map_pure, Walk.plain, Table.assign_backward]
  rfl

lemma tourIn_plain (l : Logged) :
    Option.map Logged.toTour <$> tourIn .plain o req d fuel l = tour o req d fuel l.toTour := by
  induction fuel generalizing l with
  | zero =>
    unfold tourIn tour
    split <;> rfl
  | succ fuel ih =>
    unfold tourIn tour
    split
    · rfl
    · dsimp only
      rw [map_bind, ← tourStepIn_plain, bind_map_left]
      exact bind_congr fun l' => ih l'

lemma probeDomainsIn_plain : probeDomainsIn .plain fuel o req = probeDomains fuel o req := by
  rw [probeDomains_eq, probeDomainsIn, answerIn, bind_assoc]
  refine bind_congr fun found => ?_
  obtain ⟨queue, out⟩ := found
  unfold tourAllowed
  dsimp only
  split
  · split <;> rfl
  · rw [bind_assoc]
    refine bind_congr fun known => ?_
    rw [bind_assoc]
    change (tourIn _ _ _ _ _ { queue := queue, out := out } >>= _) =
      tour _ _ _ _ (Logged.toTour { queue := queue, out := out }) >>= _
    rw [← tourIn_plain, bind_map_left]
    refine bind_congr fun last => ?_
    cases last with
    | none => rfl
    | some l =>
      simp only [stampIn, recordIn, Option.map_some, bind_assoc, pure_bind]
      rw [firstRandomiser_isSome, ← stampDomains_revise _ _ Order.forward, condemnedBy_eq]
      rfl

structure Logged.Same (l l' : Logged) : Prop where
  queue : l.queue = l'.queue
  out : ∀ addr, l.out.lookup addr = l'.out.lookup addr
  verdicts : ∀ domain, l.verdicts.lookup domain = l'.verdicts.lookup domain
  refused : l.refused = l'.refused
  exits : l.exits = l'.exits

variable {l l' : Logged}

lemma tourStepIn_alike (same : l.Same l') :
    (tourStepIn walk o req d l).Alike Logged.Same (tourStepIn walk' o req d l') := by
  have asking : d.asking l.verdicts = d.asking l'.verdicts := by
    funext g
    unfold Domains.asking Domains.wants
    rw [same.verdicts]
  unfold tourStepIn
  rw [same.queue, same.refused, asking]
  refine (Prog.Alike.refl _).bind ?_
  rintro family _ rfl
  refine (Prog.Alike.refl _).bind ?_
  rintro exit _ rfl
  refine .done ⟨rfl, fun addr => ?_, fun domain => ?_, rfl, ?_⟩
  · rw [Table.lookup_assign_of, Table.lookup_assign_of, Table.lookup_overlay, Table.lookup_overlay, same.out]
  · have old : (fun domain => l.verdicts.lookup domain) = fun domain => l'.verdicts.lookup domain := by
      funext domain
      exact same.verdicts domain
    rw [lookup_settleIn, lookup_settleIn, old]
  · rw [same.exits]

lemma tourIn_alike (same : l.Same l') :
    (tourIn walk o req d fuel l).Alike (Option.Rel Logged.Same) (tourIn walk' o req d fuel l') := by
  induction fuel generalizing l l' with
  | zero =>
    unfold tourIn
    rw [same.queue]
    split
    · exact .done (.some same)
    · exact .done .none
  | succ fuel ih =>
    unfold tourIn
    rw [same.queue]
    split
    · exact .done (.some same)
    · exact (tourStepIn_alike same).bind fun _ _ same' => ih same'

structure Told (groups : List SessionGroup) (exit : Exit) : Prop where
  named : Named groups exit.verdicts
  judged : Judged exit.verdicts
  plain : ∀ addr r, exit.results.lookup addr = some r → r.Unstamped
  suffix : exit.rest <:+ groups.flatMap SessionGroup.addrs

variable {S : Type} {W : World calls S} {s : S} {groups : List SessionGroup}

lemma session_told {sreq : Request} {grouped : Bool} (apart : groups.Pairwise Apart) :
    (session o sreq groups grouped).Ensures W (fun exit _ => Told groups exit) s := by
  have accounted : (session o sreq groups grouped).Ensures W (fun exit _ => ∃ l, Account o groups {} l exit) s :=
    (session_accounts rfl apart).promises
  have minuted : (session o sreq groups grouped).Ensures W (fun exit _ => ∃ m s,
      Entered o (o.policyStopFor sreq) (Sourced o (o.policyStopFor sreq)) groups {} exit s m) s :=
    (session_minuted rfl rfl).promises
  refine (accounted.and minuted).mono ?_
  rintro exit _ ⟨⟨l, account⟩, m, sitting, entered⟩
  refine ⟨account.named, entered.judged, entered.outcome.unstamped, ?_⟩
  rw [← entered.addrs, ← entered.rest]
  exact entered.outcome.suffix

structure Logging (req : Request) (d : Domains) (l : Logged) : Prop where
  waiting : Waiting req d l.toTour
  judged : Judged l.verdicts
  settled : ∀ domain v, l.verdicts.lookup domain = some v ↔ Established l.exits domain v
  plain : ∀ addr r, l.out.lookup addr = some r → r.Unstamped

lemma tourStepIn_logging (multi : req.domains ≠ [])
    (owner : d.domainOf = domainsOf (mergeGroups req.domains)) (need : d.need = needsOf (mergeGroups req.domains))
    (some : l.queue ≠ []) (logging : Logging req d l) :
    (tourStepIn walk o req d l).Ensures W (fun l' _ => Logging req d l') s := by
  have anyway : (grouping o req.mxHost).Ensures W (fun _ _ => True) s := .always fun _ _ => trivial
  refine anyway.andThen fun family s' _ => ?_
  have waiting := logging.waiting
  have taken := takeSession_spec (family.2 && !l.refused) o.maxRCPT_pos some fun g member => (waiting.owned g member).1
  have round := waiting.round multi need (by simp +contextual) taken
  obtain ⟨-, leftPieces, -, leftDomains⟩ := takeSession_domains l.queue o.maxRCPT (family.2 && !l.refused)
  generalize takeSession l.queue o.maxRCPT (family.2 && !l.refused) = pair at taken round leftPieces leftDomains ⊢
  obtain ⟨batch, left⟩ := pair
  refine (session_told round.apart).andThen fun exit s'' told => ?_
  have flat : (batch.map (d.asking l.verdicts)).flatMap SessionGroup.addrs = queued batch := List.flatMap_map ..
  have unasked := unasked_of_known told.named round.wanted
  -- A domain with a verdict is not asked again.
  have fresh : ∀ domain v, exit.verdicts.lookup domain = .some v → l.verdicts.lookup domain = none := by
    intro domain v found
    obtain ⟨g, member, rfl, asks⟩ := told.named domain v found
    rw [round.wanted g member] at asks
    cases known : d.known with
    | true => exact waiting.unasked known g.domain
    | false => simpa [queueFindings, known] using (Bool.and_eq_true_iff.mp asks).2
  refine ⟨?_, told.judged.settleIn _ logging.judged, settleIn_established _ logging.settled fresh, ?_⟩
  · obtain ⟨more, suffix⟩ := told.suffix
    refine waiting.next more multi owner taken.same (fun g member => ⟨leftPieces g member, ?_⟩) leftDomains
      (flat ▸ suffix.symm) _ _ ?_
    · obtain ⟨whole, -, part⟩ := taken.left_parts g member
      exact part.some
    · intro known domain
      rw [lookup_settleIn, resettle, unasked known domain]
      exact waiting.unasked known domain
  · intro addr r found
    rw [Table.lookup_assign_of, Table.lookup_overlay, Option.or_eq_some_iff] at found
    rcases found with new | ⟨-, old⟩
    · exact told.plain addr r new
    · exact logging.plain addr r old

lemma tourIn_logging (multi : req.domains ≠ [])
    (owner : d.domainOf = domainsOf (mergeGroups req.domains)) (need : d.need = needsOf (mergeGroups req.domains))
    (logging : Logging req d l) :
    (tourIn walk o req d fuel l).Ensures W (fun last _ => ∀ l', last = some l' → Logging req d l') s := by
  induction fuel generalizing l s with
  | zero =>
    unfold tourIn
    split
    · intro l' same
      cases same
      exact logging
    · intro l' same
      cases same
  | succ fuel ih =>
    unfold tourIn
    split
    · intro l' same
      cases same
      exact logging
    · rename_i some
      exact (tourStepIn_logging multi owner need some logging).andThen fun l' s' next => ih next

inductive Agree : Option (Except Str (Results × Report)) → Option (Except Str (Results × Report)) → Prop where
  | cut : Agree none none
  | failed {err : Str} : Agree (some (.error err)) (some (.error err))
  | answered {out out' : Results} {report : Report} (same : ∀ addr, out.lookup addr = out'.lookup addr) :
      Agree (some (.ok (out, report))) (some (.ok (out', report)))

omit [Unicode] in
lemma stampIn_alike (same : l.Same l') (judged : Judged l.verdicts) :
    (stampIn walk o req d (some l)).Alike Agree (stampIn walk' o req d (some l')) := by
  have judged' : Judged l'.verdicts := fun domain v found => judged domain v ((same.verdicts domain).trans found)
  have first : firstRandomiser (walk.condemning.of l.verdicts) = firstRandomiser (walk'.condemning.of l'.verdicts) := by
    rcases firstRandomiser_of walk.condemning judged with ⟨⟨domain, v, found, shown⟩, here⟩ | ⟨nowhere, here⟩ <;>
      rcases firstRandomiser_of walk'.condemning judged' with ⟨⟨domain', v', found', shown'⟩, there⟩ | ⟨nowhere', there⟩
    · rw [here, there]
    · exact absurd shown (nowhere' domain v ((same.verdicts domain).symm.trans found))
    · exact absurd shown' (nowhere domain' v' ((same.verdicts domain').trans found'))
    · rw [here, there]
  unfold stampIn condemnedIn
  dsimp only
  rw [first, same.exits, Table.revise_of, Table.revise_of]
  refine (Prog.Alike.refl _).bind ?_
  rintro _ _ rfl
  refine .done (.answered fun addr => ?_)
  rw [Table.lookup_mapVals, Table.lookup_mapVals, same.out]
  unfold stampFor
  rw [same.verdicts]

lemma Enlisted.logging {queue : List SessionGroup} {out : Results} (known : Bool) (multi : req.domains ≠ [])
    (enlisted : Enlisted (fun _ _ => True) (fun _ => True) (mergeGroups req.domains) ∅ (queue, out)) :
    Logging req { domainOf := domainsOf (mergeGroups req.domains), need := needsOf (mergeGroups req.domains), known := known }
      { queue := queue, out := out } where
  waiting := enlisted.waiting known multi
  judged := .empty
  settled domain v := by simp [Established]
  plain addr r found := by
    obtain ⟨reason, -, rfl⟩ := (enlisted.out addr r found).resolve_left (by simp)
    exact ⟨rfl, rfl⟩

/-- Whatever the orders, the same operations and the same answer. -/
lemma answerIn_alike (walk walk' : Walk) (fuel : Nat) (o : Options) (multi : req.domains ≠ []) :
    (answerIn walk fuel o req).Alike Agree (answerIn walk' fuel o req) := by
  refine ((Prog.Alike.refl _).sure (enqueue_enlisted o req).anywhere).bind ?_
  rintro ⟨queue, out⟩ _ ⟨rfl, enlisted⟩
  dsimp only
  split
  · split
    · exact .done .failed
    · exact .done (.answered fun _ => rfl)
  · refine (Prog.Alike.refl _).bind ?_
    rintro known _ rfl
    have same : Logged.Same { queue := queue, out := out } { queue := queue, out := out } :=
      ⟨rfl, fun _ => rfl, fun _ => rfl, rfl, rfl⟩
    refine ((tourIn_alike same).sure (tourIn_logging multi rfl rfl (enlisted.logging known multi))).bind ?_
    rintro last last' ⟨related, logged⟩
    cases related with
    | none => exact .done .cut
    | some same => exact stampIn_alike same (logged _ rfl).judged

/-- The host is known for a randomiser, or some domain showed it to be one. -/
def Report.Condemns (report : Report) : Prop :=
  report.known = some true ∨ ∃ domain v, Established report.exits domain v ∧ v.randomiser = some true

def Result.Carries (r : Result) (v : CatchAllVerdict) : Prop := r.catchAll = v.catchAll ∧ r.randomiser = v.randomiser

/-- Every result carries the verdict of its own domain, if there is one, or the verdict
that condemns the host. The store is not asked only where every address is suppressed. -/
structure Stamped (req : Request) (out : Results) (report : Report) : Prop where
  condemned : report.Condemns → ∀ addr r, out.lookup addr = some r → r.Carries randomised
  own : ¬ report.Condemns → ∀ g ∈ mergeGroups req.domains, ∀ addr ∈ g.emails, ∀ r, out.lookup addr = some r →
    (∃ v, Established report.exits g.domain v ∧ r.Carries v) ∨
      (∀ v, ¬ Established report.exits g.domain v) ∧ r.Carries {}
  unasked : report.known = none →
    report.exits = [] ∧ ∀ addr r, out.lookup addr = some r → ∃ reason, r = suppressedResult reason

lemma Enlisted.stamped {out : Results}
    (enlisted : Enlisted (fun _ _ => True) (fun _ => True) (mergeGroups req.domains) ∅ ([], out)) :
    Stamped req out {} := by
  have hits : ∀ addr r, out.lookup addr = some r → ∃ reason, r = suppressedResult reason := by
    intro addr r found
    obtain ⟨reason, -, same⟩ := (enlisted.out addr r found).resolve_left (by simp)
    exact ⟨reason, same⟩
  have nothing : ∀ domain v, ¬ Established ({} : Report).exits domain v := by simp [Established]
  refine ⟨fun condemned => ?_, fun _ g _ addr _ r found => .inr ⟨nothing g.domain, ?_⟩, fun _ => ⟨rfl, hits⟩⟩
  · rcases condemned with known | ⟨domain, v, established, -⟩
    · cases known
    · exact absurd established (nothing domain v)
  · obtain ⟨reason, rfl⟩ := hits addr r found
    exact ⟨rfl, rfl⟩

lemma condemnedIn_of (order : Order Str CatchAllVerdict) (logging : Logging req d l) :
    ({ known := some d.known, exits := l.exits : Report }.Condemns ∧
        condemnedIn d.known (order.of l.verdicts) = some randomised) ∨
      ¬ { known := some d.known, exits := l.exits : Report }.Condemns ∧
        condemnedIn d.known (order.of l.verdicts) = none := by
  unfold condemnedIn
  rcases firstRandomiser_of order logging.judged with ⟨⟨domain, v, found, shown⟩, first⟩ | ⟨nowhere, first⟩
  · exact .inl ⟨.inr ⟨domain, v, (logging.settled domain v).mp found, shown⟩, by rw [first]; rfl⟩
  · cases known : d.known with
    | true => exact .inl ⟨.inl rfl, by rw [first]; rfl⟩
    | false =>
      refine .inr ⟨?_, by rw [first]; rfl⟩
      rintro (yes | ⟨domain, v, established, shown⟩)
      · cases yes
      · exact nowhere domain v ((logging.settled domain v).mpr established) shown

lemma Logging.stamped (logging : Logging req d l) (owner : d.domainOf = domainsOf (mergeGroups req.domains)) :
    Stamped req (Table.revise (stampFor d l.verdicts (condemnedIn d.known (walk.condemning.of l.verdicts)))
      (walk.stamping.of l.out) l.out) { known := some d.known, exits := l.exits } := by
  rw [Table.revise_of]
  rcases condemnedIn_of walk.condemning logging with ⟨condemns, all⟩ | ⟨spared, none⟩
  · rw [all]
    refine ⟨fun _ addr r found => ?_, fun spared => absurd condemns spared, nofun⟩
    rw [Table.lookup_mapVals] at found
    obtain ⟨before, -, rfl⟩ := Option.map_eq_some_iff.mp found
    exact ⟨rfl, rfl⟩
  · rw [none]
    refine ⟨fun condemns => absurd condemns spared, fun _ g member addr inside r found => ?_, nofun⟩
    rw [Table.lookup_mapVals] at found
    obtain ⟨before, here, rfl⟩ := Option.map_eq_some_iff.mp found
    unfold stampFor
    rw [owner, domainsOf_mergeGroups member inside, Option.getD_some, Option.none_or]
    cases looked : l.verdicts.lookup g.domain with
    | some v => exact .inl ⟨v, (logging.settled g.domain v).mp looked, rfl, rfl⟩
    | none =>
      refine .inr ⟨fun v established => ?_, (logging.plain addr before here).catchAll,
        (logging.plain addr before here).randomiser⟩
      rw [← logging.settled, looked] at established
      cases established

lemma answerIn_stamped (multi : req.domains ≠ []) :
    (answerIn walk fuel o req).Ensures W (fun answer _ => ∀ out report, answer = some (.ok (out, report)) →
      Stamped req out report) s := by
  refine (enqueue_enlisted o req).anywhere.andThen fun found s' enlisted => ?_
  obtain ⟨queue, out⟩ := found
  dsimp only
  split
  · rename_i nobody
    split
    · intro out report same
      cases same
    · intro out report same
      cases same
      exact (nobody ▸ enlisted).stamped
  · have anyway : (knownRandomiser o req.mxHost).Ensures W (fun _ _ => True) s' := .always fun _ _ => trivial
    refine anyway.andThen fun known s'' _ => ?_
    refine (tourIn_logging multi rfl rfl (enlisted.logging known multi)).andThen fun last s₃ logged => ?_
    cases last with
    | none =>
      intro out report same
      cases same
    | some l =>
      refine Prog.Ensures.bind (.always fun _ _ => ?_)
      intro out report same
      cases same
      exact (logged l rfl).stamped rfl

structure Ends (req : Request) (fuel : Nat) (answer : Option (Except Str (Results × Report))) : Prop where
  ends : req.addrs.length ≤ fuel → answer ≠ none
  accepted : req.mxHost ≠ [] → req.addrs ≠ [] → ∀ err, answer ≠ some (.error err)
  keys : ∀ out report, answer = some (.ok (out, report)) → ∀ addr, (out.lookup addr).isSome ↔ addr ∈ req.addrs

omit [Unicode] in
lemma Ends.agree {answer answer' : Option (Except Str (Results × Report))} (ended : Ends req fuel answer)
    (agree : Agree answer answer') : Ends req fuel answer' := by
  cases agree with
  | cut => exact ended
  | failed => exact ended
  | answered same =>
    refine ⟨nofun, nofun, fun out report found addr => ?_⟩
    cases found
    rw [← same addr]
    exact ended.keys _ _ rfl addr

lemma recordIn_ends {order : Order Str Result} {answer : Option (Except Str (Results × Report))}
    (finished : (recordIn order o req answer).Ensures World.free (fun found _ => ∃ w, Finished o req fuel found w) ()) :
    Ends req fuel answer := by
  match answer, finished with
  | none, ⟨w, finished⟩ =>
    refine ⟨fun enough => ?_, nofun, nofun⟩
    cases finished.ends enough
  | some (.error err), ⟨w, finished⟩ => exact ⟨nofun, fun host some => absurd rfl (finished.accepted host some err), nofun⟩
  | some (.ok (out, report)), finished =>
    have someone : ∀ op, Nonempty (calls.Answer op) := fun op => ⟨(granting true op).1⟩
    obtain ⟨w, finished⟩ := Prog.Ensures.value finished
    refine ⟨nofun, nofun, fun out' report' same => ?_⟩
    cases same
    exact (finished.probed _ rfl).keys

lemma answerIn_ends (multi : req.domains ≠ []) :
    (answerIn walk fuel o req).Ensures W (fun answer _ => Ends req fuel answer) s := by
  have finished : (answerIn .plain fuel o req >>= recordIn Walk.plain.recording o req).Ensures World.free
      (fun found _ => ∃ w, Finished o req fuel found w) () := by
    change (probeDomainsIn .plain fuel o req).Ensures _ _ _
    rw [probeDomainsIn_plain]
    exact (probeDomains_follows multi).promises
  have plain : (answerIn .plain fuel o req).Ensures World.free (fun answer _ => Ends req fuel answer) () :=
    finished.of_bind.mono fun answer _ recorded => recordIn_ends recorded
  refine ((((answerIn_alike .plain walk fuel o multi).sure plain).ensures (.always fun _ _ => trivial)).mono ?_)
  rintro answer _ ⟨answer', ⟨agree, ended⟩, -⟩
  exact ended.agree agree

end

end EmailVerifier.Prober
