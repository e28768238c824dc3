import EmailVerifier.Prober.Account
import EmailVerifier.Prober.ProbeConduct
import EmailVerifier.Semantics.Triple

/-! An invariant rule for requests.

A request screens its addresses and then holds one session after the other until none
is left, whether it is about one domain, in chunks, or about several, off a queue. What
holds at first and is kept by every session that accounts for its groups holds of the
answer. The invariant speaks of the addresses still ahead, the books, the results and
the catch-all verdicts so far.
-/

set_option autoImplicit false

namespace EmailVerifier.Prober
open Text Data Semantics

abbrev Findings := Str → Option CatchAllVerdict

def resettle (new : Verdicts) (old : Findings) : Findings := fun domain =>
  match new.lookup domain with
  | some v => if v.decided then some v else old domain
  | none => old domain

def KeepsBooks [Unicode] (o : Options) (req : Request) (W : World calls Ledger) : Prop :=
  ∀ l e l', W l e l' → l' = l.next o (o.policyStopFor req) e

structure Screens (o : Options) (W : World calls Ledger) (hit : Str → Str → Prop) (spared : Str → Prop) : Prop where
  refuses : ∀ l l' a reason, W l ⟨.suppressed a, .ok (true, reason)⟩ l' → hit a reason
  allows : ∀ l l' a reason, W l ⟨.suppressed a, .ok (false, reason)⟩ l' → spared a
  unread : ∀ l l' a err, W l ⟨.suppressed a, .error err⟩ l' → spared a
  idle : ∀ l l', W l ⟨.enforcing, false⟩ l' → ∀ a, spared a
  unwired : o.suppress = false → ∀ a, spared a

structure Screened (hit : Str → Str → Prop) (spared : Str → Prop) (emails : List Str) (into : Results)
    (sifted : List Str × Results) : Prop where
  some_of : sifted.1.Sublist emails
  spares : ∀ a ∈ sifted.1, spared a
  out : ∀ a r, sifted.2.lookup a = some r → into.lookup a = some r ∨ ∃ reason, hit a reason ∧ r = suppressedResult reason

structure Enlisted (hit : Str → Str → Prop) (spared : Str → Prop) (groups : List DomainGroup) (into : Results)
    (found : List SessionGroup × Results) : Prop where
  some_of : (queued found.1).Sublist (groups.flatMap DomainGroup.emails)
  domains : (found.1.map SessionGroup.domain).Sublist (groups.map DomainGroup.domain)
  parts : ∀ g ∈ found.1, g.addrs ≠ [] ∧ ∃ whole ∈ groups, whole.domain = g.domain ∧ g.addrs ⊆ whole.emails
  spares : ∀ a ∈ queued found.1, spared a
  out : ∀ a r, found.2.lookup a = some r → into.lookup a = some r ∨ ∃ reason, hit a reason ∧ r = suppressedResult reason

lemma Enlisted.cons {hit : Str → Str → Prop} {spared : Str → Prop} {into : Results} {g : DomainGroup} {groups : List DomainGroup} {sifted : List Str × Results}
    {found : List SessionGroup × Results} (screened : Screened hit spared g.emails into sifted)
    (later : Enlisted hit spared groups sifted.2 found) :
    Enlisted hit spared (g :: groups) into
      (if sifted.1 = [] then found.1 else { domain := g.domain, addrs := sifted.1 } :: found.1, found.2) := by
  have out : ∀ a r, found.2.lookup a = some r →
      into.lookup a = some r ∨ ∃ reason, hit a reason ∧ r = suppressedResult reason := by
    intro a r looked
    rcases later.out a r looked with before | hits
    · exact screened.out a r before
    · exact .inr hits
  have parts := parts_cons screened.some_of.subset later.parts
  by_cases none : sifted.1 = []
  · rw [if_pos none] at parts ⊢
    exact ⟨later.some_of.trans (List.sublist_append_right _ _), later.domains.cons g.domain, parts, later.spares, out⟩
  · rw [if_neg none] at parts ⊢
    refine ⟨screened.some_of.append later.some_of, later.domains.cons_cons g.domain, parts, fun a member => ?_, out⟩
    rcases List.mem_append.mp member with here | there
    · exact screened.spares a here
    · exact later.spares a there

def chunkFindings (req : Request) (verdict : CatchAllVerdict) (settled : Bool) : Findings := fun domain =>
  if domain = req.domain ∧ settled = true then some verdict else none

structure Verdict (verdict : CatchAllVerdict) (settled : Bool) : Prop where
  pending : settled = false → verdict = {}
  closed : settled = true → verdict.decided = true

lemma resettle_chunk {req : Request} {chunk : List Str} {verdict : CatchAllVerdict} {settled : Bool} {verdicts : Verdicts}
    (named : Named [{ domain := req.domain, addrs := chunk, askCatchAll := req.needCatchAll && !settled }] verdicts) :
    resettle verdicts (chunkFindings req verdict settled) =
      if (req.needCatchAll && !settled && ((verdicts.lookup req.domain).getD {}).decided) = true
      then chunkFindings req ((verdicts.lookup req.domain).getD {}) true
      else chunkFindings req verdict settled := by
  have asks : ∀ domain v, verdicts.lookup domain = some v →
      domain = req.domain ∧ (req.needCatchAll && !settled) = true := by
    intro domain v found
    obtain ⟨g, member, same, asks⟩ := named domain v found
    rw [List.mem_singleton.mp member] at same asks
    exact ⟨same.symm, asks⟩
  funext domain
  unfold resettle
  split
  · rename_i v found
    obtain ⟨rfl, wanted⟩ := asks domain v found
    rw [found, wanted, Option.getD_some, Bool.true_and]
    split
    · simp [chunkFindings]
    · rfl
  · rename_i missing
    split
    · rename_i decided
      -- Some verdict was reached, and it is not about this domain.
      cases looked : verdicts.lookup req.domain with
      | none =>
        rw [looked] at decided
        simp [CatchAllVerdict.decided] at decided
      | some v =>
        have other : domain ≠ req.domain := by
          rintro rfl
          rw [missing] at looked
          cases looked
        simp [chunkFindings, other]
    · rfl

lemma sameAnswer_stamp (v : CatchAllVerdict) (r : Result) : (r.stamp v).SameAnswer r := rfl

lemma stampAll_same (v : CatchAllVerdict) (out : Results) (a : Str) :
    Option.Rel Result.SameAnswer ((stampAll v out).lookup a) (out.lookup a) := by
  unfold stampAll
  split
  · rw [Table.lookup_mapVals]
    cases out.lookup a with
    | none => exact .none
    | some r => exact .some (sameAnswer_stamp v r)
  · exact optionRel_refl _

lemma settle_entries (entries : List (Sigma fun _ : Str => CatchAllVerdict)) (distinct : entries.NodupKeys)
    (old : Verdicts) (domain : Str) :
    (entries.foldl (fun m e => if e.2.decided then m.insert e.1 e.2 else m) old).lookup domain =
      match entries.dlookup domain with
      | some v => if v.decided then some v else old.lookup domain
      | none => old.lookup domain := by
  induction entries generalizing old with
  | nil => rfl
  | cons e more ih =>
    obtain ⟨key, v⟩ := e
    obtain ⟨fresh, later⟩ := List.nodupKeys_cons.mp distinct
    have here : (if v.decided = true then old.insert key v else old).lookup domain =
        if domain = key ∧ v.decided = true then some v else old.lookup domain := by
      by_cases decided : v.decided = true
      · simp [decided, Table.lookup_insert_ite]
      · simp [decided]
    rw [List.foldl_cons, ih later]
    by_cases same : domain = key
    · subst same
      rw [List.dlookup_eq_none.mpr fresh, List.dlookup_cons_eq]
      simpa using here
    · have unmoved : ¬ (domain = key ∧ v.decided = true) := fun both => same both.1
      rw [if_neg unmoved] at here
      rw [List.dlookup_cons_ne _ _ same]
      simp only [here]

lemma lookup_settle (new old : Verdicts) (domain : Str) :
    (settle new old).lookup domain = resettle new (fun domain => old.lookup domain) domain :=
  settle_entries new.entries new.nodupKeys old domain

lemma condemnedBy_found {verdicts : Verdicts} {v : CatchAllVerdict} (found : condemnedBy false verdicts = some v) :
    ∃ domain, verdicts.lookup domain = some v := by
  unfold condemnedBy at found
  split at found
  · rename_i e first
    cases found
    exact ⟨e.1, AList.mem_lookup_iff.mpr (List.mem_of_find?_eq_some first)⟩
  · cases found

lemma condemnedBy_known {verdicts : Verdicts} (unasked : ∀ domain, verdicts.lookup domain = none) :
    condemnedBy true verdicts = some randomised := by
  have none : verdicts.entries.find? (fun e => e.2.randomiser = some true) = none := by
    refine List.find?_eq_none.mpr fun e member => ?_
    have found := AList.mem_lookup_iff.mpr member
    rw [unasked] at found
    cases found
  rw [condemnedBy, none]
  rfl

lemma stampDomains_same (d : Domains) (t : Tour) (a : Str) :
    Option.Rel Result.SameAnswer ((stampDomains d t).lookup a) (t.out.lookup a) := by
  rw [stampDomains, Table.lookup_mapVals]
  cases t.out.lookup a with
  | none => exact .none
  | some r =>
    refine .some ?_
    split
    · exact sameAnswer_stamp _ r
    · exact .rfl

section
variable [Unicode]

def Request.merged (req : Request) : List Str :=
  if req.domains ≠ [] then (mergeGroups req.domains).flatMap DomainGroup.emails else req.emails

def Request.domainOf (req : Request) (addr : Str) : Str :=
  if req.domains ≠ [] then ((domainsOf (mergeGroups req.domains)).lookup addr).getD [] else req.domain

def Request.needs (req : Request) (domain : Str) : Bool :=
  if req.domains ≠ [] then ((needsOf (mergeGroups req.domains)).lookup domain).getD false else req.needCatchAll

structure Round (req : Request) (settled : Findings) (groups : List SessionGroup) : Prop where
  apart : groups.Pairwise Apart
  owned : ∀ g ∈ groups, ∀ a ∈ g.addrs, req.domainOf a = g.domain
  wanted : ∀ g ∈ groups, g.askCatchAll = (req.needs g.domain && (settled g.domain).isNone)

structure Upheld (o : Options) (req : Request) (hit : Str → Str → Prop) (spared : Str → Prop) (fact : Ledger → Prop)
    (inv : List Str → Ledger → Results → Findings → Prop) : Prop where
  start : ∀ left out settled, left.Sublist req.merged → (∀ a ∈ left, spared a) →
    (∀ a r, out.lookup a = some r → ∃ reason, hit a reason ∧ r = suppressedResult reason) →
    (∀ domain v, settled domain = some v → v = randomised) → inv left {} out settled
  session : ∀ groups later l l' out settled exit, inv (groups.flatMap SessionGroup.addrs ++ later) l out settled →
    Round req settled groups → Account o groups l l' exit → fact l' →
    inv (exit.rest ++ later) l' (Table.overlay exit.results out) (resettle exit.verdicts settled)
  drop : ∀ front left l out settled, inv (front ++ left) l out settled → inv left l out settled

/-- What the invariant says of the answer: the results are those it speaks of, with a
verdict stamped on where there is one. -/
structure Upholds (req : Request) (inv : List Str → Ledger → Results → Findings → Prop) (l : Ledger)
    (results out : Results) (settled : Findings) : Prop where
  kept : inv [] l out settled
  same : ∀ a, Option.Rel Result.SameAnswer (results.lookup a) (out.lookup a)
  stamped : ∀ a r, results.lookup a = some r →
    (∃ domain v, settled domain = some v ∧ r.catchAll = v.catchAll) ∨ settled (req.domainOf a) = none

variable {o : Options} {req : Request} {W : World calls Ledger} {hit : Str → Str → Prop} {spared : Str → Prop}
  {fact : Ledger → Prop} {inv : List Str → Ledger → Results → Findings → Prop} {A B : Type} {l : Ledger}
  {post : B → Ledger → Prop} {emails : List Str} {into : Results}

section
variable (keeps : KeepsBooks o req W)
include keeps

lemma quiet_ensured {q : Act A} {f : A → Act B}
    (quiet : q.Only Quiet) (rest : ∀ a, (f a).Ensures W post l) : (q >>= f).Ensures W post l := by
  have still : q.Ensures W (fun _ l' => l' = l) l := by
    refine quiet.ensures (fun mid e l' silent same answered => ?_) rfl
    rw [keeps mid e l' answered, same, Ledger.next_quiet silent]
  refine still.andThen fun a l' same => ?_
  rw [same]
  exact rest a

lemma sift_ensured (screens : Screens o W hit spared) :
    (sift o emails into).Ensures W (fun sifted l' => l' = l ∧ Screened hit spared emails into sifted) l := by
  induction emails generalizing into with
  | nil => exact ⟨rfl, List.Sublist.refl _, by simp, fun a r found => .inl found⟩
  | cons addr more ih =>
    have allowed (fine : spared addr) : (sift o more into >>= fun x => pure (addr :: x.1, x.2)).Ensures W
        (fun sifted l' => l' = l ∧ Screened hit spared (addr :: more) into sifted) l := by
      refine ih.andThen fun sifted l' found => ⟨found.1, found.2.some_of.cons_cons addr, ?_, found.2.out⟩
      intro a member
      rcases List.mem_cons.mp member with rfl | member
      · exact fine
      · exact found.2.spares a member
    refine .bind fun answer l' answered => ?_
    have still : l' = l := (keeps _ _ _ answered).trans (Ledger.next_quiet trivial)
    subst still
    rcases answer with err | ⟨yes, reason⟩
    · exact quiet_ensured keeps (notify_only _ _) fun _ => allowed (screens.unread _ _ _ _ answered)
    · cases yes with
      | false => exact allowed (screens.allows _ _ _ _ answered)
      | true =>
        refine ih.mono fun sifted l' found => ⟨found.1, found.2.some_of.cons addr, found.2.spares, fun a r looked => ?_⟩
        rcases found.2.out a r looked with before | hits
        · rw [Table.lookup_insert_ite] at before
          split at before
          · rename_i same
            cases before
            exact .inr ⟨reason, same ▸ screens.refuses _ _ _ _ answered, rfl⟩
          · exact .inl before
        · exact .inr hits

lemma unsuppressed_ensured (screens : Screens o W hit spared) :
    (unsuppressed o emails into).Ensures W (fun sifted l' => l' = l ∧ Screened hit spared emails into sifted) l := by
  have all (fine : ∀ a, spared a) : Screened hit spared emails into (emails, into) :=
    ⟨List.Sublist.refl _, fun a _ => fine a, fun a r found => .inl found⟩
  unfold unsuppressed
  split
  · refine .bind fun enforced l' answered => ?_
    have still : l' = l := (keeps _ _ _ answered).trans (Ledger.next_quiet trivial)
    subst still
    cases enforced with
    | true => exact sift_ensured keeps screens
    | false => exact ⟨rfl, all (screens.idle _ _ answered)⟩
  · rename_i unwired
    exact ⟨rfl, all (screens.unwired (Bool.eq_false_iff.mpr unwired))⟩

lemma enqueue_ensured {groups : List DomainGroup} (screens : Screens o W hit spared) :
    (enqueue o groups into).Ensures W (fun found l' => l' = l ∧ Enlisted hit spared groups into found) l := by
  induction groups generalizing into with
  | nil =>
    exact ⟨rfl, List.Sublist.refl _, List.Sublist.refl _, by simp, by simp [queued], fun a r found => .inl found⟩
  | cons g more ih =>
    refine (unsuppressed_ensured keeps screens).andThen fun sifted l' screened => ?_
    obtain ⟨same, screened⟩ := screened
    subst same
    refine ih.andThen fun found l' enlisted => ?_
    exact ⟨enlisted.1, enlisted.2.cons screened⟩

end

variable {groups : List SessionGroup} {verdict : CatchAllVerdict} {settled : Bool} {out : Results} {fuel : Nat}
  (keeps : KeepsBooks o req W) (facts : ∀ l e l', fact l → W l e l' → fact l') (upheld : Upheld o req hit spared fact inv)

include keeps facts in
lemma session_ensured (sreq : Request) {grouped : Bool} (limit : o.policyStopFor sreq = o.policyStopFor req)
    (apart : groups.Pairwise Apart) (holds : fact l) :
    (session o sreq groups grouped).Ensures W (fun exit l' => Account o groups l l' exit ∧ fact l') l :=
  ((session_accounts limit.symm apart).ensures keeps).keeping facts holds

lemma round_of_chunk {chunk : List Str} (single : req.domains = []) :
    Round req (chunkFindings req verdict settled)
      [{ domain := req.domain, addrs := chunk, askCatchAll := req.needCatchAll && !settled }] where
  apart := List.pairwise_singleton _ _
  owned g member a _ := by
    rw [List.mem_singleton.mp member]
    simp [Request.domainOf, single]
  wanted g member := by
    rw [List.mem_singleton.mp member]
    cases settled <;> simp [Request.needs, single, chunkFindings]

include keeps facts upheld in
lemma askChunks_ensured {chunks : List (List Str)} (single : req.domains = []) (holds : fact l)
    (held : inv chunks.flatten l out (chunkFindings req verdict settled)) (stands : Verdict verdict settled) :
    (askChunks o req chunks out verdict settled).Ensures W (fun found l' =>
      ∃ settled', inv [] l' found.1 (chunkFindings req found.2 settled') ∧ Verdict found.2 settled') l := by
  induction chunks generalizing l out verdict settled with
  | nil => exact ⟨settled, held, stands⟩
  | cons chunk more ih =>
    refine (session_ensured keeps facts req rfl (List.pairwise_singleton _ _) holds).andThen fun exit l' ended => ?_
    obtain ⟨account, holds'⟩ := ended
    rw [List.flatten_cons] at held
    have kept := upheld.drop exit.rest _ _ _ _
      (upheld.session [{ domain := req.domain, addrs := chunk, askCatchAll := req.needCatchAll && !settled }]
        more.flatten l l' out _ exit (by simpa using held) (round_of_chunk single) account holds')
    rw [resettle_chunk account.named] at kept
    dsimp only
    split
    · rename_i decided
      rw [if_pos decided] at kept
      refine ih holds' kept ⟨nofun, fun _ => ?_⟩
      exact (Bool.and_eq_true_iff.mp decided).2
    · rename_i undecided
      rw [if_neg undecided] at kept
      exact ih holds' kept stands

lemma stampAll_stamped {a : Str} {r : Result}
    (stands : Verdict verdict settled) (found : (stampAll verdict out).lookup a = some r) :
    (∃ domain v, chunkFindings req verdict settled domain = some v ∧ r.catchAll = v.catchAll) ∨
      chunkFindings req verdict settled (req.domainOf a) = none := by
  cases settled with
  | false => exact .inr (by simp [chunkFindings])
  | true =>
    refine .inl ⟨req.domain, verdict, by simp [chunkFindings], ?_⟩
    rw [stampAll, if_pos (stands.closed rfl), Table.lookup_mapVals] at found
    obtain ⟨base, -, rfl⟩ := Option.map_eq_some_iff.mp found
    rfl

include keeps facts upheld in
lemma probeSingle_ensured (screens : Screens o W hit spared) (single : req.domains = []) (holds : fact {}) :
    (probeSingle o req).Ensures W (fun response l' =>
      ∃ out settled, Upholds req inv l' response.results out settled) {} := by
  have merged : req.merged = req.emails := by simp [Request.merged, single]
  refine (unsuppressed_ensured keeps screens).andThen fun sifted l' screened => ?_
  obtain ⟨emails, out⟩ := sifted
  obtain ⟨same, screened⟩ := screened
  subst same
  have hits : ∀ a r, out.lookup a = some r → ∃ reason, hit a reason ∧ r = suppressedResult reason := by
    intro a r found
    exact (screened.out a r found).resolve_left (by simp)
  have start : ∀ settled, (∀ domain v, settled domain = some v → v = randomised) → inv emails {} out settled :=
    fun settled known => upheld.start emails out settled (merged ▸ screened.some_of) screened.spares hits known
  dsimp only
  split
  · rename_i nobody
    refine quiet_ensured keeps (recordAll_only _ _ _) fun _ => ⟨out, fun _ => none, ?_, fun a => optionRel_refl _, ?_⟩
    · exact nobody ▸ start (fun _ => none) (by simp)
    · exact fun a r found => .inr rfl
  · refine quiet_ensured keeps (knownRandomiser_only _ _) fun known => ?_
    have first : inv (chunks emails o.maxRCPT).flatten {} out
        (chunkFindings req (if known = true then randomised else {}) known) := by
      rw [chunks_flatten]
      refine start _ fun domain v found => ?_
      cases known with
      | false => simp [chunkFindings] at found
      | true =>
        unfold chunkFindings at found
        split at found
        · exact (Option.some.inj found).symm
        · cases found
    refine (askChunks_ensured keeps facts upheld single holds first ?_).andThen fun found l' asked => ?_
    · cases known with
      | false => exact ⟨fun _ => rfl, nofun⟩
      | true => exact ⟨nofun, fun _ => rfl⟩
    · obtain ⟨settled, kept, stands⟩ := asked
      refine quiet_ensured keeps (markNew_only _ _ _) fun _ => quiet_ensured keeps (recordAll_only _ _ _) fun _ => ?_
      exact ⟨found.1, _, kept, stampAll_same _ _, fun a r looked => stampAll_stamped stands looked⟩

def queueFindings (known : Bool) (verdicts : Verdicts) : Findings := fun domain =>
  if known then some randomised else verdicts.lookup domain

structure Waiting (req : Request) (d : Domains) (t : Tour) : Prop where
  once : (queued t.queue).Nodup
  owned : ∀ g ∈ t.queue, g.addrs ≠ [] ∧ ∀ a ∈ g.addrs, req.domainOf a = g.domain
  domains : t.refused = false → (t.queue.map SessionGroup.domain).Nodup
  unasked : d.known = true → ∀ domain, t.verdicts.lookup domain = none

variable {d : Domains} {t : Tour}

lemma Waiting.round {limit : Nat} {grouped : Bool} (waiting : Waiting req d t) (multi : req.domains ≠ [])
    (need : d.need = needsOf (mergeGroups req.domains)) (alone : t.refused = true → grouped = false)
    (taken : Taken t.queue (takeSession t.queue limit grouped).1 (takeSession t.queue limit grouped).2 limit grouped) :
    Round req (queueFindings d.known t.verdicts) ((takeSession t.queue limit grouped).1.map (d.asking t.verdicts)) := by
  obtain ⟨batchPieces, -, batchDomains, -⟩ := takeSession_domains t.queue limit grouped
  refine ⟨?_, ?_, ?_⟩
  · rw [List.pairwise_map]
    cases refused : t.refused with
    | true =>
      -- Grouping was refused before: one group at a time.
      have single := taken.alone (alone refused)
      cases batch : (takeSession t.queue limit grouped).1 with
      | nil => exact List.Pairwise.nil
      | cons g more =>
        rw [batch, List.tail_cons] at single
        rw [single]
        exact List.pairwise_singleton _ _
    | false =>
      have named := List.pairwise_map.mp ((waiting.domains refused).sublist batchDomains)
      have once : (queued (takeSession t.queue limit grouped).1).Nodup :=
        List.Nodup.of_append_left (taken.same ▸ waiting.once)
      have disjoint := (List.nodup_flatMap.mp once).2
      exact (named.and disjoint).imp fun both => ⟨both.1, both.2⟩
  · intro g member a inside
    obtain ⟨part, inBatch, rfl⟩ := List.mem_map.mp member
    obtain ⟨whole, inQueue, same, within⟩ := batchPieces part inBatch
    exact ((waiting.owned whole inQueue).2 a (within inside)).trans same.symm
  · intro g member
    obtain ⟨part, -, rfl⟩ := List.mem_map.mp member
    have needed : req.needs part.domain = (d.need.lookup part.domain).getD false := by
      rw [Request.needs, if_pos multi, need]
    change (d.wants t.verdicts part.domain) = (req.needs part.domain && _)
    rw [needed, Domains.wants, queueFindings]
    cases d.known <;> simp [Domains.asking]

lemma Waiting.next {batch left : List SessionGroup} {exit : Exit} (more : List Str) (waiting : Waiting req d t)
    (multi : req.domains ≠ []) (owner : d.domainOf = domainsOf (mergeGroups req.domains))
    (same : queued batch ++ queued left = queued t.queue) (parts : ∀ g ∈ left, PieceOf t.queue g ∧ g.addrs ≠ [])
    (domains : (left.map SessionGroup.domain).Sublist (t.queue.map SessionGroup.domain))
    (suffix : queued batch = more ++ exit.rest) (out : Results) (verdicts : Verdicts)
    (unasked : d.known = true → ∀ domain, verdicts.lookup domain = none) :
    Waiting req d {
      queue := regroup d.domainOf exit.rest ++ left
      out := out
      verdicts := verdicts
      refused := t.refused || exit.rest ≠ [] } where
  once := by
    obtain ⟨flat, -⟩ := regroup_spec d.domainOf exit.rest
    have once := waiting.once
    rw [← same, suffix, List.append_assoc] at once
    rw [queued_append, flat]
    exact List.Nodup.of_append_right once
  owned := by
    intro g member
    obtain ⟨-, filled⟩ := regroup_spec d.domainOf exit.rest
    rcases List.mem_append.mp member with back | later
    · obtain ⟨some, own⟩ := filled g back
      refine ⟨some, fun a inside => ?_⟩
      rw [Request.domainOf, if_pos multi, ← owner]
      exact (own a inside).symm
    · obtain ⟨⟨whole, inQueue, named, within⟩, some⟩ := parts g later
      exact ⟨some, fun a inside => ((waiting.owned whole inQueue).2 a (within inside)).trans named.symm⟩
  domains := by
    intro unrefused
    obtain ⟨before, none⟩ := Bool.or_eq_false_iff.mp unrefused
    have none : exit.rest = [] := by simpa using none
    rw [none]
    exact (waiting.domains before).sublist domains
  unasked := unasked

section
variable {verdicts : Verdicts} (named : Named groups verdicts)
  (wanted : ∀ g ∈ groups, g.askCatchAll = (req.needs g.domain && (queueFindings d.known t.verdicts g.domain).isNone))
include named wanted

lemma unasked_of_known (known : d.known = true) (domain : Str) : verdicts.lookup domain = none := by
  cases found : verdicts.lookup domain with
  | none => rfl
  | some v =>
    obtain ⟨g, member, -, asks⟩ := named domain v found
    rw [wanted g member, known] at asks
    simp [queueFindings] at asks

lemma queueFindings_settle :
    resettle verdicts (queueFindings d.known t.verdicts) = queueFindings d.known (settle verdicts t.verdicts) := by
  funext domain
  cases known : d.known with
  | false =>
    change _ = (settle verdicts t.verdicts).lookup domain
    rw [lookup_settle]
    rfl
  | true =>
    unfold resettle
    rw [unasked_of_known named wanted known domain]
    rfl

end

include keeps facts upheld in
lemma tourStep_ensured (multi : req.domains ≠ []) (owner : d.domainOf = domainsOf (mergeGroups req.domains))
    (need : d.need = needsOf (mergeGroups req.domains)) (holds : fact l) (waiting : Waiting req d t)
    (some : t.queue ≠ []) (held : inv (queued t.queue) l t.out (queueFindings d.known t.verdicts)) :
    (tourStep o req d t).Ensures W (fun t' l' => fact l' ∧ Waiting req d t' ∧
      inv (queued t'.queue) l' t'.out (queueFindings d.known t'.verdicts)) l := by
  refine quiet_ensured keeps (grouping_only _ _) fun family => ?_
  have taken := takeSession_spec (family.2 && !t.refused) o.maxRCPT_pos some fun g member => (waiting.owned g member).1
  have round := waiting.round multi need (by simp +contextual) taken
  obtain ⟨-, leftPieces, -, leftDomains⟩ := takeSession_domains t.queue o.maxRCPT (family.2 && !t.refused)
  generalize takeSession t.queue o.maxRCPT (family.2 && !t.refused) = pair at taken round leftPieces leftDomains ⊢
  obtain ⟨batch, left⟩ := pair
  refine (session_ensured keeps facts { req with
    domain := ((batch.map (d.asking t.verdicts)).head?.map SessionGroup.domain).getD []
    domains := [] } rfl round.apart holds).andThen fun exit l' ended => ?_
  obtain ⟨account, holds'⟩ := ended
  have flat : (batch.map (d.asking t.verdicts)).flatMap SessionGroup.addrs = queued batch := List.flatMap_map ..
  have kept := upheld.session (batch.map (d.asking t.verdicts)) (queued left) l l' t.out _ exit
    (by rw [flat, taken.same]; exact held) round account holds'
  rw [queueFindings_settle account.named round.wanted] at kept
  obtain ⟨more, again, lost, tally⟩ := account.tally
  refine ⟨holds', ?_, ?_⟩
  · refine waiting.next (more.map Heard.addr ++ lost) multi owner taken.same
      (fun g member => ⟨leftPieces g member, ?_⟩) leftDomains ?_ _ _ ?_
    · obtain ⟨whole, -, part⟩ := taken.left_parts g member
      exact part.some
    · rw [← flat, tally.same, List.append_assoc]
    · intro known domain
      rw [lookup_settle, resettle, unasked_of_known account.named round.wanted known domain]
      exact waiting.unasked known domain
  · obtain ⟨back, -⟩ := regroup_spec d.domainOf exit.rest
    rw [queued_append, back]
    exact kept

include keeps facts upheld in
lemma tour_ensured (multi : req.domains ≠ []) (owner : d.domainOf = domainsOf (mergeGroups req.domains))
    (need : d.need = needsOf (mergeGroups req.domains)) (holds : fact l) (waiting : Waiting req d t)
    (held : inv (queued t.queue) l t.out (queueFindings d.known t.verdicts)) :
    (tour o req d fuel t).Ensures W (fun last l' => ∀ t', last = some t' →
      Waiting req d t' ∧ inv [] l' t'.out (queueFindings d.known t'.verdicts)) l := by
  induction fuel generalizing l t with
  | zero =>
    unfold tour
    split
    · rename_i empty
      intro t' same
      cases same
      exact ⟨waiting, by simpa [empty, queued] using held⟩
    · intro t' same
      cases same
  | succ fuel ih =>
    unfold tour
    split
    · rename_i empty
      intro t' same
      cases same
      exact ⟨waiting, by simpa [empty, queued] using held⟩
    · rename_i some
      refine (tourStep_ensured keeps facts upheld multi owner need holds waiting some held).andThen fun t' l' kept => ?_
      exact ih kept.1 kept.2.1 kept.2.2

lemma Enlisted.waiting {queue : List SessionGroup} (known : Bool) (multi : req.domains ≠ [])
    (enlisted : Enlisted hit spared (mergeGroups req.domains) ∅ (queue, out)) :
    Waiting req { domainOf := domainsOf (mergeGroups req.domains), need := needsOf (mergeGroups req.domains), known := known }
      { queue := queue, out := out } where
  once := (nodup_mergeGroups_emails req.domains).sublist enlisted.some_of
  owned := by
    intro g member
    obtain ⟨filled, whole, inside, same, within⟩ := enlisted.parts g member
    refine ⟨filled, fun a holds => ?_⟩
    rw [Request.domainOf, if_pos multi, domainsOf_mergeGroups inside (within holds), ← same]
    rfl
  domains _ := (nodup_mergeGroups_domains req.domains).sublist enlisted.domains
  unasked := by simp

lemma stampDomains_stamped {a : Str} {r : Result} (waiting : Waiting req d t) (multi : req.domains ≠ [])
    (owner : d.domainOf = domainsOf (mergeGroups req.domains)) (found : (stampDomains d t).lookup a = some r) :
    (∃ domain v, queueFindings d.known t.verdicts domain = some v ∧ r.catchAll = v.catchAll) ∨
      queueFindings d.known t.verdicts (req.domainOf a) = none := by
  rw [stampDomains, Table.lookup_mapVals] at found
  obtain ⟨base, -, stamped⟩ := Option.map_eq_some_iff.mp found
  cases known : d.known with
  | true =>
    rw [known, condemnedBy_known (waiting.unasked known)] at stamped
    cases stamped
    exact .inl ⟨[], randomised, rfl, rfl⟩
  | false =>
    have own : (d.domainOf.lookup a).getD [] = req.domainOf a := by rw [Request.domainOf, if_pos multi, owner]
    rw [known, own] at stamped
    cases condemned : condemnedBy false t.verdicts with
    | some v =>
      obtain ⟨domain, looked⟩ := condemnedBy_found condemned
      rw [condemned] at stamped
      cases stamped
      exact .inl ⟨domain, v, looked, rfl⟩
    | none =>
      cases looked : t.verdicts.lookup (req.domainOf a) with
      | none => exact .inr looked
      | some v =>
        rw [condemned, looked] at stamped
        cases stamped
        exact .inl ⟨_, v, looked, rfl⟩

variable (screens : Screens o W hit spared) (holds : fact {})
include keeps facts upheld screens holds

lemma probeDomains_ensured (multi : req.domains ≠ []) :
    (probeDomains fuel o req).Ensures W (fun answer l' => ∀ response, answer = some (.ok response) →
      ∃ out settled, Upholds req inv l' response.results out settled) {} := by
  have merged : req.merged = (mergeGroups req.domains).flatMap DomainGroup.emails := if_pos multi
  refine (enqueue_ensured keeps screens).andThen fun found l' enlisted => ?_
  obtain ⟨queue, out⟩ := found
  obtain ⟨same, enlisted⟩ := enlisted
  subst same
  have hits : ∀ a r, out.lookup a = some r → ∃ reason, hit a reason ∧ r = suppressedResult reason := by
    intro a r looked
    exact (enlisted.out a r looked).resolve_left (by simp)
  have start : ∀ settled, (∀ domain v, settled domain = some v → v = randomised) → inv (queued queue) {} out settled :=
    fun settled known => upheld.start _ out settled (merged ▸ enlisted.some_of) enlisted.spares hits known
  dsimp only
  split
  · rename_i nobody
    split
    · intro response answer
      cases answer
    · refine quiet_ensured keeps (recordAll_only _ _ _) fun _ response answer => ?_
      cases answer
      refine ⟨out, fun _ => none, ?_, fun a => optionRel_refl _, fun a r looked => .inr rfl⟩
      simpa [nobody, queued] using start (fun _ => none) (by simp)
  · refine quiet_ensured keeps (knownRandomiser_only _ _) fun known => ?_
    have first : inv (queued queue) {} out (queueFindings known ∅) := by
      refine start _ fun domain v looked => ?_
      cases known with
      | false => simp [queueFindings] at looked
      | true => exact (Option.some.inj looked).symm
    have waiting := enlisted.waiting known multi
    refine (tour_ensured keeps facts upheld multi rfl rfl holds waiting first).andThen fun last l' toured => ?_
    cases last with
    | none =>
      intro response answer
      cases answer
    | some t =>
      obtain ⟨waiting', kept⟩ := toured t rfl
      refine quiet_ensured keeps (markNew_only _ _ _) fun _ => quiet_ensured keeps (recordAll_only _ _ _) fun _ => ?_
      intro response answer
      cases answer
      exact ⟨t.out, _, kept, stampDomains_same _ t, fun a r looked => stampDomains_stamped waiting' multi rfl looked⟩

lemma probe_ensured :
    (probe fuel o req).Ensures W (fun answer l' => ∀ response, answer = some (.ok response) →
      ∃ out settled, Upholds req inv l' response.results out settled) {} := by
  unfold probe
  split
  · intro response answer
    cases answer
  · split
    · rename_i multi
      exact probeDomains_ensured keeps facts upheld screens holds multi
    · rename_i single
      split
      · intro response answer
        cases answer
      · refine (probeSingle_ensured keeps facts upheld screens (not_not.mp single) holds).andThen ?_
        intro found l' kept response answer
        cases answer
        exact kept

/-- The invariant rule: what is upheld by every session of a request is upheld by its
answer. -/
lemma Probe_ensured :
    (Probe fuel o req).Ensures W (fun answer l' => ∀ response, answer = some (.ok response) →
      ∃ out settled, Upholds req inv l' response.results out settled) {} := by
  refine (probe_ensured keeps facts upheld screens holds).andThen fun answer l' kept => ?_
  split
  · rename_i response
    refine quiet_ensured keeps (grouping_only _ _) fun family => ?_
    intro response' answer
    cases answer
    exact kept response rfl
  · exact kept

end

end EmailVerifier.Prober
