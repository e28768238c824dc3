import EmailVerifier.Prober.Grouping
import EmailVerifier.Prober.SessionConduct

/-! A whole request keeps to the protocol.

From `session_follows` to `Probe`: suppression, the chunk loop, the session loop over
several domains with refused addresses coming back, and the stamping at the end.
-/

set_option autoImplicit false

namespace EmailVerifier.Prober
open Text Data Semantics

def Request.addrs (req : Request) : List Str :=
  if req.domains ≠ [] then req.domains.flatMap DomainGroup.emails else req.emails

def Request.catchAllDomains [Unicode] (req : Request) : List Str :=
  if req.domains ≠ [] then
    ((mergeGroups req.domains).filter fun g => g.needCatchAll && g.emails ≠ []).map DomainGroup.domain
  else if req.needCatchAll then [req.domain] else []

def scopeOf [Unicode] (o : Options) (req : Request) : Scope where
  host := req.mxHost
  helo := req.heloFor o
  sender := req.mailFromFor o
  port := o.portOr
  timeout := o.timeoutOr
  maxRCPT := o.maxRCPT
  addrs := req.addrs
  domains := req.catchAllDomains
  health := o.health
  leasing := o.leases
  paced := o.paced

lemma scopeOf_fits [Unicode] (o : Options) (req : Request) : Fits (scopeOf o req) o req :=
  ⟨rfl, rfl, rfl, rfl, rfl, rfl, rfl, rfl, rfl⟩

lemma Fits.domain {c : Scope} {o : Options} {req : Request} (fits : Fits c o req) (domain : Str)
    (domains : List DomainGroup) : Fits c o { req with domain := domain, domains := domains } :=
  ⟨fits.host, fits.helo, fits.sender, fits.port, fits.timeout, fits.maxRCPT, fits.health, fits.leasing, fits.paced⟩

lemma record_only (o : Options) (host : Str) (r : Result) : (record o host r).Only Quiet := by
  refine .bind (notify_only _ _) fun _ => .bind (notify_only _ _) fun _ => .bind (notify_only _ _) fun _ => ?_
  split
  · exact notify_only _ _
  · exact Prog.only_pure _

lemma recordAll_only (o : Options) (host : Str) (results : List Result) : (recordAll o host results).Only Quiet := by
  induction results with
  | nil => exact Prog.only_pure _
  | cons r more ih => exact .bind (record_only o host r) fun _ => ih

lemma knownRandomiser_only (o : Options) (host : Str) : (knownRandomiser o host).Only Quiet := by
  unfold knownRandomiser
  split
  · exact (Prog.only_ask _).mpr trivial
  · exact Prog.only_pure _

lemma markNew_only (o : Options) (host : Str) (found : Bool) : (markNew o host found).Only Quiet := by
  unfold markNew
  split
  · exact (Prog.only_ask _).mpr trivial
  · exact Prog.only_pure _

lemma stampAll_keys (v : CatchAllVerdict) (out : Results) (addr : Str) :
    ((stampAll v out).lookup addr).isSome = (out.lookup addr).isSome := by
  unfold stampAll
  split
  · rw [Table.lookup_mapVals, Option.isSome_map]
  · rfl

lemma Watch.idle_start : ({} : Watch).Idle := ⟨rfl, rfl, rfl, rfl⟩

lemma suppressedResult_unanswered (reason : Str) : Unanswered (suppressedResult reason) :=
  ⟨rfl, rfl, by simp [suppressedResult, Class.IsVerdict]⟩

section
variable [Unicode] {c : Scope} {o : Options} {req : Request} {B : Type} {w w' : Watch}
  {post : B → Watch → Prop} {answers : List (Str × Reply)} {emails : List Str} {into out : Results}

/-- What suppression makes of some addresses: each may be contacted or has a result. -/
structure Sifted (o : Options) (answers : List (Str × Reply)) (emails : List Str) (into : Results)
    (sifted : List Str × Results) : Prop where
  some_of : sifted.1.Sublist emails
  backed : AllBacked o answers sifted.2
  covered : ∀ a, a ∈ sifted.1 ∨ (sifted.2.lookup a).isSome ↔ a ∈ emails ∨ (into.lookup a).isSome

lemma Sifted.all (backed : AllBacked o answers into) : Sifted o answers emails into (emails, into) :=
  ⟨List.Sublist.refl _, backed, fun _ => Iff.rfl⟩

variable {groups : List DomainGroup} {d : Domains} {t : Tour} {fuel : Nat} {sifted : List Str × Results}
  {found : List SessionGroup × Results} {batch : List SessionGroup}

lemma Sifted.allow {addr : Str} (sift : Sifted o answers emails into sifted) :
    Sifted o answers (addr :: emails) into (addr :: sifted.1, sifted.2) := by
  refine ⟨sift.some_of.cons_cons addr, sift.backed, fun a => ?_⟩
  rw [List.mem_cons, or_assoc, sift.covered a, List.mem_cons, or_assoc]

lemma Sifted.refuse {addr : Str} {r : Result} (sift : Sifted o answers emails (into.insert addr r) sifted) :
    Sifted o answers (addr :: emails) into sifted := by
  refine ⟨sift.some_of.cons addr, sift.backed, fun a => ?_⟩
  rw [sift.covered a, Table.lookup_insert_ite, List.mem_cons]
  by_cases same : a = addr <;> simp [same]

lemma sift_then {f : List Str × Results → Act B} (backed : AllBacked o w.answers into)
    (rest : ∀ sifted, Sifted o w.answers emails into sifted → (f sifted).Follows (Step c) post w) :
    (sift o emails into >>= f).Follows (Step c) post w := by
  refine .bind ?_
  induction emails generalizing into B f post with
  | nil => exact rest _ (.all backed)
  | cons addr more ih =>
    have allowed : (sift o more into >>= fun x => pure (addr :: x.1, x.2)).Follows (Step c)
        (fun sifted w' => (f sifted).Follows (Step c) post w') w :=
      .bind (ih backed fun sifted sift => rest _ sift.allow)
    refine .bind (.ask fun answer => ⟨w, .aside trivial, ?_⟩)
    rcases answer with err | ⟨hit, reason⟩
    · exact quiet_then (notify_only _ _) fun _ => allowed
    · dsimp only
      split
      · exact ih (backed.insert (.unanswered (suppressedResult_unanswered reason))) fun sifted sift =>
          rest _ sift.refuse
      · exact allowed

lemma unsuppressed_then {f : List Str × Results → Act B} (backed : AllBacked o w.answers into)
    (rest : ∀ sifted, Sifted o w.answers emails into sifted → (f sifted).Follows (Step c) post w) :
    (unsuppressed o emails into >>= f).Follows (Step c) post w := by
  refine .bind ?_
  unfold unsuppressed
  split
  · refine .bind (.ask fun enforced => ⟨w, .aside trivial, ?_⟩)
    cases enforced with
    | true => exact .of_bind (sift_then backed rest)
    | false => exact rest _ (.all backed)
  · exact rest _ (.all backed)

structure Swept (o : Options) (w w' : Watch) (addrs : List Str) (out out' : Results) : Prop where
  idle : w'.Idle
  refusals : w'.refusals = w.refusals
  answers : w.answers <+: w'.answers
  backed : AllBacked o w'.answers out'
  covered : ∀ a, (out'.lookup a).isSome ↔ a ∈ addrs ∨ (out.lookup a).isSome
  sent : ∃ asked, w'.sent = w.sent ++ asked ∧ asked.Sublist addrs

lemma Returned.swept {g : SessionGroup} {exit : Exit} (returned : Returned o [g] w w' exit)
    (backed : AllBacked o w.answers out) : Swept o w w' g.addrs out (Table.overlay exit.results out) := by
  have none : exit.rest = [] := List.suffix_nil.mp returned.within
  obtain ⟨front, asked, same, keys, sent, split⟩ := returned.parted
  rw [none, List.append_nil, List.flatMap_cons, List.flatMap_nil, List.append_nil] at same
  refine ⟨returned.idle, by rw [returned.refusals, if_pos none], returned.answers,
    returned.backed.overlay (backed.mono returned.answers), fun a => ?_, asked, sent, ?_⟩
  · rw [Table.lookup_overlay, Option.isSome_or, Bool.or_eq_true, keys, same]
    simp
  · rcases split with within | ⟨addr, head, -⟩
    · exact same ▸ within.sublist
    · rw [none] at head
      cases head

lemma Swept.trans {mid : Watch} {addrs more : List Str} {out₁ out₂ out₃ : Results}
    (first : Swept o w mid addrs out₁ out₂) (second : Swept o mid w' more out₂ out₃) :
    Swept o w w' (addrs ++ more) out₁ out₃ := by
  obtain ⟨asked, sent, within⟩ := first.sent
  obtain ⟨asked', sent', within'⟩ := second.sent
  refine ⟨second.idle, second.refusals.trans first.refusals, first.answers.trans second.answers,
    second.backed, fun a => ?_, asked ++ asked', ?_, within.append within'⟩
  · rw [second.covered, first.covered, List.mem_append, ← or_assoc, or_comm (a := a ∈ more)]
  · rw [sent', sent, List.append_assoc]

lemma askChunks_then {chunks : List (List Str)} {verdict : CatchAllVerdict} {settled : Bool}
    {f : Results × CatchAllVerdict → Act B} (fits : Fits c o req) (idle : w.Idle)
    (backed : AllBacked o w.answers out) (few : ∀ chunk ∈ chunks, chunk.length ≤ c.maxRCPT)
    (members : ∀ chunk ∈ chunks, ∀ addr ∈ chunk, addr ∈ c.addrs)
    (wanted : req.needCatchAll = true → req.domain ∈ c.domains)
    (rest : ∀ w' out' v, Swept o w w' chunks.flatten out out' → (f (out', v)).Follows (Step c) post w') :
    (askChunks o req chunks out verdict settled >>= f).Follows (Step c) post w := by
  refine .bind ?_
  induction chunks generalizing w out verdict settled with
  | nil => exact rest w out verdict ⟨idle, rfl, List.prefix_rfl, backed, by simp, [], by simp, by simp⟩
  | cons chunk more ih =>
    have may : MayEnter c
        [{ domain := req.domain, addrs := chunk, askCatchAll := req.needCatchAll && !settled }] := by
      refine ⟨?_, fun g member => ?_, fun g member asks => ?_⟩
      · simpa using few chunk List.mem_cons_self
      · rw [List.mem_singleton.mp member]
        exact members chunk List.mem_cons_self
      · rw [List.mem_singleton.mp member] at asks ⊢
        exact wanted (Bool.and_elim_left asks)
    refine (session_follows fits may idle).andThen fun exit mid returned => ?_
    have swept := returned.swept backed
    have again (verdict : CatchAllVerdict) (settled : Bool) :
        (askChunks o req more (Table.overlay exit.results out) verdict settled).Follows (Step c)
          (fun x w' => (f x).Follows (Step c) post w') mid :=
      ih swept.idle swept.backed (fun chunk' member => few chunk' (List.mem_cons_of_mem chunk member))
        (fun chunk' member => members chunk' (List.mem_cons_of_mem chunk member))
        (fun w' out' v more => rest w' out' v (by rw [List.flatten_cons]; exact swept.trans more))
    dsimp only
    split
    · exact again _ _
    · exact again _ _

/-- What a request leaves behind: every address has a result that is backed, nothing
is held, grouping was refused at most once, and but for one address no question was
put twice. -/
structure Probed (o : Options) (req : Request) (w' : Watch) (results : Results) : Prop where
  idle : w'.Idle
  backed : AllBacked o w'.answers results
  keys : ∀ addr, (results.lookup addr).isSome ↔ addr ∈ req.addrs
  refusals : w'.refusals ≤ 1
  sent : req.addrs.Nodup → ∃ again once, w'.sent.Perm (again ++ once) ∧ again.length ≤ 1 ∧ once.Nodup

lemma stampAll_backed {v : CatchAllVerdict} (backed : AllBacked o answers out) :
    AllBacked o answers (stampAll v out) := by
  unfold stampAll
  split
  · exact backed.mapVals fun addr r backed => backed.stamped rfl
  · exact backed

/-- What `probeSingle` does once it is known who may be contacted. -/
def askAllowed (o : Options) (req : Request) : List Str × Results → Act Response
  | (emails, out) =>
    if emails = [] then do
      recordAll o req.mxHost (Table.vals out)
      pure { results := out }
    else do
      let known ← knownRandomiser o req.mxHost
      let (out, verdict) ←
        askChunks o req (chunks emails o.maxRCPT) out (if known then randomised else {}) known
      markNew o req.mxHost (verdict.randomiser = some true && !known)
      recordAll o req.mxHost (Table.vals (stampAll verdict out))
      pure { results := stampAll verdict out }

lemma probeSingle_eq (o : Options) (req : Request) :
    probeSingle o req = unsuppressed o req.emails ∅ >>= askAllowed o req := rfl

lemma askAllowed_follows (fits : Fits c o req) (single : req.domains = [])
    (sift : Sifted o [] req.emails ∅ sifted) (members : ∀ addr ∈ sifted.1, addr ∈ c.addrs)
    (wanted : sifted.1 ≠ [] → req.needCatchAll = true → req.domain ∈ c.domains) :
    (askAllowed o req sifted).Follows (Step c) (fun response w' => Probed o req w' response.results) {} := by
  have asked : req.addrs = req.emails := by simp [Request.addrs, single]
  obtain ⟨emails, out⟩ := sifted
  unfold askAllowed
  dsimp only
  split
  · rename_i nobody
    refine quiet_then (recordAll_only _ _ _) fun _ => ?_
    refine ⟨Watch.idle_start, sift.backed, fun addr => ?_, Nat.zero_le _, fun _ => ⟨[], [], by simp, by simp, by simp⟩⟩
    have covered := sift.covered addr
    simp only [nobody] at covered
    simpa [asked] using covered
  · rename_i someone
    refine quiet_then (knownRandomiser_only _ _) fun known => ?_
    have flat := chunks_flatten emails o.maxRCPT
    have few : ∀ chunk ∈ chunks emails o.maxRCPT, chunk.length ≤ c.maxRCPT := by
      rw [fits.maxRCPT]
      exact chunks_length o.maxRCPT_pos
    refine askChunks_then fits Watch.idle_start sift.backed few ?_ (wanted someone) ?_
    · intro chunk member addr inside
      exact members addr (flat ▸ List.mem_flatten.mpr ⟨chunk, member, inside⟩)
    · intro w' out' v swept
      rw [flat] at swept
      refine quiet_then (markNew_only _ _ _) fun _ => quiet_then (recordAll_only _ _ _) fun _ => ?_
      obtain ⟨again, sent, within⟩ := swept.sent
      refine ⟨swept.idle, stampAll_backed swept.backed, fun addr => ?_, swept.refusals ▸ Nat.zero_le _, fun distinct => ?_⟩
      · rw [stampAll_keys, swept.covered, sift.covered, asked]
        simp
      · refine ⟨[], w'.sent, List.Perm.refl _, Nat.zero_le _, ?_⟩
        rw [sent]
        exact (asked ▸ distinct).sublist (within.trans sift.some_of)

lemma probeSingle_follows (single : req.domains = []) :
    (probeSingle o req).Follows (Step (scopeOf o req)) (fun response w' => Probed o req w' response.results) {} := by
  have asked : req.addrs = req.emails := by simp [Request.addrs, single]
  rw [probeSingle_eq]
  refine unsuppressed_then (w := {}) AllBacked.empty fun sifted sift => ?_
  refine askAllowed_follows (scopeOf_fits o req) single sift (fun addr member => ?_) fun _ needs => ?_
  · change addr ∈ req.addrs
    rw [asked]
    exact sift.some_of.subset member
  · simp [scopeOf, Request.catchAllDomains, single, needs]

/-- What may be asked of the merged groups, and the results of what may not. -/
structure Enqueued (o : Options) (answers : List (Str × Reply)) (groups : List DomainGroup) (into : Results)
    (found : List SessionGroup × Results) : Prop where
  parts : ∀ g ∈ found.1, g.addrs ≠ [] ∧ ∃ whole ∈ groups, whole.domain = g.domain ∧ g.addrs ⊆ whole.emails
  some_of : (queued found.1).Sublist (groups.flatMap DomainGroup.emails)
  backed : AllBacked o answers found.2
  covered : ∀ a, a ∈ queued found.1 ∨ (found.2.lookup a).isSome ↔
    a ∈ groups.flatMap DomainGroup.emails ∨ (into.lookup a).isSome

omit [Unicode] in
lemma parts_cons {g : DomainGroup} {addrs : List Str} {found : List SessionGroup} (some_of : addrs ⊆ g.emails)
    (later : ∀ part ∈ found, part.addrs ≠ [] ∧ ∃ whole ∈ groups, whole.domain = part.domain ∧ part.addrs ⊆ whole.emails) :
    ∀ part ∈ if addrs = [] then found else { domain := g.domain, addrs } :: found,
      part.addrs ≠ [] ∧ ∃ whole ∈ g :: groups, whole.domain = part.domain ∧ part.addrs ⊆ whole.emails := by
  intro part member
  have old (member : part ∈ found) :
      part.addrs ≠ [] ∧ ∃ whole ∈ g :: groups, whole.domain = part.domain ∧ part.addrs ⊆ whole.emails := by
    obtain ⟨filled, whole, inside, same⟩ := later part member
    exact ⟨filled, whole, List.mem_cons_of_mem g inside, same⟩
  split at member
  · exact old member
  · rename_i some
    rcases List.mem_cons.mp member with rfl | member
    · exact ⟨some, g, List.mem_cons_self, rfl, some_of⟩
    · exact old member

lemma Enqueued.cons {g : DomainGroup} (sift : Sifted o answers g.emails into sifted)
    (later : Enqueued o answers groups sifted.2 found) :
    Enqueued o answers (g :: groups) into
      (if sifted.1 = [] then found.1 else { domain := g.domain, addrs := sifted.1 } :: found.1, found.2) := by
  have flat : queued (if sifted.1 = [] then found.1 else { domain := g.domain, addrs := sifted.1 } :: found.1) =
      sifted.1 ++ queued found.1 := by
    split
    · rename_i none
      rw [none, List.nil_append]
    · rfl
  refine ⟨parts_cons sift.some_of.subset later.parts, ?_, later.backed, fun a => ?_⟩
  · rw [flat, List.flatMap_cons]
    exact sift.some_of.append later.some_of
  · rw [flat, List.mem_append, or_assoc, later.covered a, List.flatMap_cons, List.mem_append]
    have here := sift.covered a
    tauto

lemma enqueue_then {f : List SessionGroup × Results → Act B} (backed : AllBacked o w.answers into)
    (rest : ∀ found, Enqueued o w.answers groups into found → (f found).Follows (Step c) post w) :
    (enqueue o groups into >>= f).Follows (Step c) post w := by
  refine .bind ?_
  induction groups generalizing into B f post with
  | nil => exact rest _ ⟨by simp, by simp [queued], backed, by simp [queued]⟩
  | cons g more ih =>
    refine unsuppressed_then backed ?_
    rintro ⟨allowed, out⟩ sifted
    refine .bind (ih sifted.backed ?_)
    rintro ⟨queue, out'⟩ found
    exact rest _ (.cons sifted found)

/-- What may stand in the queue: addresses of the scope, each under its own domain, and a
domain that wants the catch-all question only where the scope has it. -/
structure Permitted (c : Scope) (groups : List DomainGroup) (g : SessionGroup) : Prop where
  asked : ∀ a ∈ g.addrs, a ∈ c.addrs
  own : ∀ a ∈ g.addrs, (domainsOf groups).lookup a = some g.domain
  wanted : (needsOf groups).lookup g.domain = some true → g.domain ∈ c.domains

omit [Unicode] in
lemma Permitted.piece {queue : List SessionGroup} {g : SessionGroup}
    (permitted : ∀ whole ∈ queue, Permitted c groups whole) (piece : PieceOf queue g) : Permitted c groups g := by
  obtain ⟨whole, member, named, inside⟩ := piece
  have fine := permitted whole member
  refine ⟨fun a here => fine.asked a (inside here), fun a here => ?_, fun wanted => ?_⟩
  · rw [named]
    exact fine.own a (inside here)
  · rw [named] at wanted ⊢
    exact fine.wanted wanted

omit [Unicode] in
lemma Permitted.regrouped {rest : List Str}
    (permitted : ∀ g ∈ batch, Permitted c groups g) (inside : rest ⊆ queued batch) :
    ∀ g ∈ regroup (domainsOf groups) rest, Permitted c groups g := by
  obtain ⟨flat, filled⟩ := regroup_spec (domainsOf groups) rest
  intro g back
  obtain ⟨some, own⟩ := filled g back
  have origin (a : Str) (here : a ∈ g.addrs) : ∃ whole ∈ batch, a ∈ whole.addrs ∧ g.domain = whole.domain := by
    have inRest : a ∈ rest := flat ▸ mem_queued.mpr ⟨g, back, here⟩
    obtain ⟨whole, member, there⟩ := mem_queued.mp (inside inRest)
    refine ⟨whole, member, there, ?_⟩
    rw [own a here, (permitted whole member).own a there]
    rfl
  refine ⟨fun a here => ?_, fun a here => ?_, fun wanted => ?_⟩
  · obtain ⟨whole, member, there, -⟩ := origin a here
    exact (permitted whole member).asked a there
  · obtain ⟨whole, member, there, named⟩ := origin a here
    rw [named]
    exact (permitted whole member).own a there
  · obtain ⟨a, here⟩ := List.exists_mem_of_ne_nil _ some
    obtain ⟨whole, member, -, named⟩ := origin a here
    rw [named] at wanted ⊢
    exact (permitted whole member).wanted wanted

omit [Unicode] in
lemma wants_need {verdicts : Verdicts} {domain : Str} (wants : d.wants verdicts domain = true) :
    d.need.lookup domain = some true := by
  simp only [Domains.wants, Bool.and_eq_true] at wants
  cases looked : d.need.lookup domain with
  | none => simp [looked] at wants
  | some b => simpa [looked] using wants.1.1

structure Touring (c : Scope) (o : Options) (groups : List DomainGroup) (w : Watch) (t : Tour) : Prop where
  idle : w.Idle
  backed : AllBacked o w.answers t.out
  covered : ∀ a, a ∈ queued t.queue ∨ (t.out.lookup a).isSome ↔ a ∈ groups.flatMap DomainGroup.emails
  filled : ∀ g ∈ t.queue, g.addrs ≠ []
  permitted : ∀ g ∈ t.queue, Permitted c groups g
  refusals : w.refusals = if t.refused then 1 else 0
  /-- What was asked and what is queued are different addresses, but for one address
  that a refusal sent back. -/
  sent : ∃ again once, w.sent.Perm (again ++ once) ∧ again.length ≤ w.refusals ∧
    (once ++ queued t.queue).Subperm (groups.flatMap DomainGroup.emails)

omit [Unicode] in
lemma Permitted.mayEnter (verdicts : Verdicts)
    (need : d.need = needsOf groups) (permitted : ∀ g ∈ batch, Permitted c groups g)
    (few : (queued batch).length ≤ c.maxRCPT) : MayEnter c (batch.map (d.asking verdicts)) := by
  refine ⟨?_, fun g member a inside => ?_, fun g member asks => ?_⟩
  · rw [List.flatMap_map]
    exact few
  · obtain ⟨g', member', rfl⟩ := List.mem_map.mp member
    exact (permitted g' member').asked a inside
  · obtain ⟨g', member', rfl⟩ := List.mem_map.mp member
    exact (permitted g' member').wanted (need ▸ wants_need asks)

lemma Touring.next {left : List SessionGroup} {grouped : Bool} {exit : Exit} (owner : d.domainOf = domainsOf groups)
    (touring : Touring c o groups w t) (taken : Taken t.queue batch left o.maxRCPT grouped)
    (parts : ∀ g ∈ batch, PieceOf t.queue g) (others : ∀ g ∈ left, PieceOf t.queue g)
    (fresh : t.refused = true → grouped = false) (returned : Returned o (batch.map (d.asking t.verdicts)) w w' exit) :
    Touring c o groups w' {
      queue := regroup d.domainOf exit.rest ++ left
      out := Table.overlay exit.results t.out
      verdicts := settle exit.verdicts t.verdicts
      refused := t.refused || exit.rest ≠ [] } := by
  obtain ⟨front, asked, same, keys, sent, split⟩ := returned.parted
  obtain ⟨flat, filled⟩ := regroup_spec d.domainOf exit.rest
  rw [List.flatMap_map] at same
  change queued batch = front ++ exit.rest at same
  have whole : queued t.queue = front ++ (exit.rest ++ queued left) := by
    rw [← taken.same, same, List.append_assoc]
  have first : exit.rest ≠ [] → t.refused = false := by
    intro some
    by_contra refused
    have alone := taken.alone (fresh (Bool.eq_true_of_not_eq_false refused))
    have within := returned.within
    rw [← List.map_tail, alone] at within
    exact some (List.suffix_nil.mp within)
  refine ⟨returned.idle, returned.backed.overlay (touring.backed.mono returned.answers), fun a => ?_, ?_, ?_, ?_, ?_⟩
  · rw [queued_append, flat, Table.lookup_overlay, Option.isSome_or, Bool.or_eq_true, keys a,
      ← touring.covered a, whole]
    simp only [List.mem_append, List.not_mem_nil, false_or]
    tauto
  · intro g member
    rcases List.mem_append.mp member with back | later
    · exact (filled g back).1
    · obtain ⟨before, -, part⟩ := taken.left_parts g later
      exact part.some
  · intro g member
    rcases List.mem_append.mp member with back | later
    · refine Permitted.regrouped (fun g' member' => .piece touring.permitted (parts g' member')) ?_ g (owner ▸ back)
      rw [same]
      exact List.subset_append_right _ _
    · exact .piece touring.permitted (others g later)
  · rw [returned.refusals, touring.refusals]
    by_cases none : exit.rest = []
    · simp [none]
    · simp [none, first none]
  · obtain ⟨again, once, perm, few, within⟩ := touring.sent
    rw [whole] at within
    rw [sent, queued_append, flat]
    rcases split with answered | ⟨addr, head, rfl⟩
    · refine ⟨again, once ++ asked, ?_, ?_, ?_⟩
      · rw [← List.append_assoc]
        exact perm.append_right asked
      · rw [returned.refusals]
        split <;> omega
      · refine List.Subperm.trans (List.Sublist.subperm ?_) within
        rw [List.append_assoc]
        exact (answered.sublist.append (List.Sublist.refl _)).append_left once
    · have some : exit.rest ≠ [] := by
        rintro none
        rw [none] at head
        cases head
      refine ⟨addr :: again, once ++ front, ?_, ?_, ?_⟩
      · have last := List.perm_append_singleton addr (again ++ (once ++ front))
        simp only [List.append_assoc] at last
        refine (perm.append_right (front ++ [addr])).trans ?_
        rw [List.append_assoc]
        exact last
      · rw [returned.refusals, if_neg some, List.length_cons]
        omega
      · rwa [List.append_assoc]

lemma tourStep_then {f : Tour → Act B} (fits : Fits c o req)
    (owner : d.domainOf = domainsOf groups) (need : d.need = needsOf groups)
    (touring : Touring c o groups w t) (waiting : t.queue ≠ []) (rest : ∀ w' t', Touring c o groups w' t' →
      (queued t'.queue).length < (queued t.queue).length → (f t').Follows (Step c) post w') :
    (tourStep o req d t >>= f).Follows (Step c) post w := by
  refine .bind (quiet_then (grouping_only _ _) fun family => ?_)
  have taken := takeSession_spec (family.2 && !t.refused) o.maxRCPT_pos waiting touring.filled
  obtain ⟨parts, others, -⟩ := takeSession_domains t.queue o.maxRCPT (family.2 && !t.refused)
  have may := Permitted.mayEnter t.verdicts need
    (fun g member => .piece touring.permitted (parts g member)) (fits.maxRCPT ▸ taken.few)
  refine (session_follows (fits.domain _ _) may touring.idle).andThen fun exit w' returned => ?_
  refine rest w' _ (touring.next owner taken parts others (by simp +contextual) returned) ?_
  -- The first group is never handed back, and it is not empty.
  obtain ⟨flat, -⟩ := regroup_spec d.domainOf exit.rest
  have within := returned.within.length_le
  rw [queued_append, flat, ← taken.same, List.length_append, List.length_append]
  generalize takeSession t.queue o.maxRCPT (family.2 && !t.refused) = pair at taken within ⊢
  obtain ⟨batch, left⟩ := pair
  match batch, taken, within with
  | [], taken, _ => exact absurd rfl taken.some
  | g :: more, taken, within =>
    obtain ⟨whole, inQueue, part⟩ := taken.batch_parts g List.mem_cons_self
    have filled := List.length_pos_of_ne_nil part.some
    rw [List.map_cons, List.tail_cons, List.flatMap_map] at within
    simp only [queued, List.flatMap_cons, List.length_append] at within ⊢
    change exit.rest.length ≤ (List.flatMap SessionGroup.addrs more).length at within
    omega

/-- The whole session loop: it ends within as many rounds as there are addresses. -/
lemma tour_follows (fits : Fits c o req)
    (owner : d.domainOf = domainsOf groups) (need : d.need = needsOf groups) (touring : Touring c o groups w t) :
    (tour o req d fuel t).Follows (Step c)
      (fun last w' => (∀ t', last = some t' → Touring c o groups w' t' ∧ t'.queue = []) ∧
        ((queued t.queue).length ≤ fuel → last.isSome) ∧ w'.Idle) w := by
  induction fuel generalizing w t with
  | zero =>
    unfold tour
    split
    · rename_i empty
      exact ⟨fun t' same => Option.some.inj same ▸ ⟨touring, empty⟩, fun _ => rfl, touring.idle⟩
    · rename_i waiting
      refine ⟨fun t' same => (by cases same), fun enough => ?_, touring.idle⟩
      obtain ⟨g, member⟩ := List.exists_mem_of_ne_nil _ waiting
      obtain ⟨a, here⟩ := List.exists_mem_of_ne_nil _ (touring.filled g member)
      have some := List.length_pos_of_mem (mem_queued.mpr ⟨g, member, here⟩)
      omega
  | succ fuel ih =>
    unfold tour
    split
    · rename_i empty
      exact ⟨fun t' same => Option.some.inj same ▸ ⟨touring, empty⟩, fun _ => rfl, touring.idle⟩
    · rename_i waiting
      refine tourStep_then fits owner need touring waiting fun w' t' touring' fewer => ?_
      exact (ih touring').mono fun last w'' ⟨found, ends, idle⟩ => ⟨found, fun enough => ends (by omega), idle⟩

structure Finished (o : Options) (req : Request) (fuel : Nat) (found : Option (Except Str Response))
    (w' : Watch) : Prop where
  idle : w'.Idle
  probed : ∀ response, found = some (.ok response) → Probed o req w' response.results
  ends : req.addrs.length ≤ fuel → found.isSome
  accepted : req.mxHost ≠ [] → req.addrs ≠ [] → ∀ text, found ≠ some (.error text)

lemma Finished.ok {response : Response} (probed : Probed o req w response.results) :
    Finished o req fuel (some (.ok response)) w where
  idle := probed.idle
  probed other same := by
    cases same
    exact probed
  ends _ := rfl
  accepted _ _ text same := by cases same

lemma Touring.probed (multi : req.domains ≠ [])
    (touring : Touring c o (mergeGroups req.domains) w t) (dry : t.queue = []) : Probed o req w t.out where
  idle := touring.idle
  backed := touring.backed
  keys addr := by
    have covered := touring.covered addr
    rw [dry, mem_mergeGroups_emails] at covered
    rw [Request.addrs, if_pos multi, ← covered]
    simp [queued]
  refusals := by
    rw [touring.refusals]
    split <;> omega
  sent _ := by
    obtain ⟨again, once, perm, few, within⟩ := touring.sent
    refine ⟨again, once, perm, ?_, ?_⟩
    · have := touring.refusals
      split at this <;> omega
    · obtain ⟨part, same, sub⟩ := within
      have distinct := (nodup_mergeGroups_emails req.domains).sublist sub
      exact List.Nodup.of_append_left (same.nodup_iff.mp distinct)

lemma Probed.stampDomains (probed : Probed o req w t.out) :
    Probed o req w (stampDomains d t) := { probed with
  backed := probed.backed.mapVals fun addr r backed => by
    split
    · exact backed.stamped rfl
    · exact backed
  keys := fun addr => by
    rw [Prober.stampDomains, Table.lookup_mapVals, Option.isSome_map]
    exact probed.keys addr }

/-- What `probeDomains` does once it is known who may be contacted. -/
def tourAllowed (fuel : Nat) (o : Options) (req : Request) :
    List SessionGroup × Results → Act (Option (Except Str Response))
  | (queue, out) =>
    if queue = [] then
      if out.entries = [] then pure (some (.error (lit "prober: emails is empty")))
      else do
        recordAll o req.mxHost (Table.vals out)
        pure (some (.ok { results := out }))
    else do
      let groups := mergeGroups req.domains
      let known ← knownRandomiser o req.mxHost
      let d : Domains := { domainOf := domainsOf groups, need := needsOf groups, known := known }
      match ← tour o req d fuel { queue := queue, out := out } with
      | none => pure none
      | some t => do
        let found := t.verdicts.entries.any fun e => e.2.randomiser = some true
        markNew o req.mxHost (found && !known)
        recordAll o req.mxHost (Table.vals (stampDomains d t))
        pure (some (.ok { results := stampDomains d t }))

lemma probeDomains_eq (fuel : Nat) (o : Options) (req : Request) :
    probeDomains fuel o req = enqueue o (mergeGroups req.domains) ∅ >>= tourAllowed fuel o req := rfl

lemma Enqueued.permitted
    (enqueued : Enqueued o answers (mergeGroups req.domains) into found)
    (members : ∀ g ∈ found.1, ∀ a ∈ g.addrs, a ∈ c.addrs)
    (wanted : ∀ g ∈ found.1, ∀ whole ∈ mergeGroups req.domains, whole.domain = g.domain →
      whole.needCatchAll = true → g.domain ∈ c.domains) : ∀ g ∈ found.1, Permitted c (mergeGroups req.domains) g := by
  intro g member
  obtain ⟨-, whole, inside, named, part⟩ := enqueued.parts g member
  refine ⟨members g member, fun a here => ?_, fun need => ?_⟩
  · rw [← named]
    exact domainsOf_mergeGroups inside (part here)
  · rcases needsOf_from _ _ need with ⟨whole', inside', named', needs⟩ | nothing
    · exact wanted g member whole' inside' named' needs
    · simp at nothing

lemma tourAllowed_follows (fits : Fits c o req)
    (multi : req.domains ≠ []) (enqueued : Enqueued o [] (mergeGroups req.domains) ∅ found)
    (permitted : ∀ g ∈ found.1, Permitted c (mergeGroups req.domains) g) :
    (tourAllowed fuel o req found).Follows (Step c) (Finished o req fuel) {} := by
  have asked : req.addrs = req.domains.flatMap DomainGroup.emails := if_pos multi
  obtain ⟨queue, out⟩ := found
  have start : Touring c o (mergeGroups req.domains) {} { queue := queue, out := out } :=
    ⟨Watch.idle_start, enqueued.backed, fun a => by simpa using enqueued.covered a,
      fun g member => (enqueued.parts g member).1, permitted, rfl,
      [], [], List.Perm.refl _, Nat.le_refl _, enqueued.some_of.subperm⟩
  unfold tourAllowed
  dsimp only
  split
  · rename_i nobody
    split
    · rename_i nothing
      refine ⟨Watch.idle_start, fun response same => (by cases same), fun _ => rfl, fun _ some => ?_⟩
      obtain ⟨a, member⟩ := List.exists_mem_of_ne_nil _ some
      rw [asked, ← mem_mergeGroups_emails, ← start.covered, nobody] at member
      have empty : out = ∅ := AList.ext nothing
      simp [queued, empty] at member
    · exact quiet_then (recordAll_only _ _ _) fun _ => .ok (start.probed multi nobody)
  · refine quiet_then (knownRandomiser_only _ _) fun known => ?_
    refine (tour_follows fits rfl rfl start).andThen ?_
    rintro last w' ⟨finished, ends, idle⟩
    cases last with
    | none =>
      refine ⟨idle, fun response same => (by cases same), fun enough => ?_, fun _ _ text same => (by cases same)⟩
      have few : (queued queue).length ≤ req.addrs.length := by
        have distinct := (nodup_mergeGroups_emails req.domains).sublist enqueued.some_of
        refine (distinct.subperm fun a member => ?_).length_le
        rw [asked, ← mem_mergeGroups_emails]
        exact enqueued.some_of.subset member
      exact absurd (ends (few.trans enough)) (by simp)
    | some t =>
      obtain ⟨touring, dry⟩ := finished t rfl
      refine quiet_then (markNew_only _ _ _) fun _ => quiet_then (recordAll_only _ _ _) fun _ => ?_
      exact .ok (touring.probed multi dry).stampDomains

lemma probeDomains_follows (multi : req.domains ≠ []) :
    (probeDomains fuel o req).Follows (Step (scopeOf o req)) (Finished o req fuel) {} := by
  rw [probeDomains_eq]
  refine enqueue_then (w := {}) AllBacked.empty fun found enqueued => ?_
  refine tourAllowed_follows (scopeOf_fits o req) multi enqueued
    (enqueued.permitted (fun g member a here => ?_) fun g member whole inside named needs => ?_)
  · change a ∈ req.addrs
    rw [Request.addrs, if_pos multi, ← mem_mergeGroups_emails]
    exact enqueued.some_of.subset (mem_queued.mpr ⟨g, member, here⟩)
  · -- The domain has an address, so the request asks for the question.
    obtain ⟨filled, whole', inside', named', part⟩ := enqueued.parts g member
    cases mergeGroups_unique inside inside' (named.trans named'.symm)
    have some : whole.emails ≠ [] := fun none => filled (List.subset_nil.mp (none ▸ part))
    change g.domain ∈ req.catchAllDomains
    rw [Request.catchAllDomains, if_pos multi]
    exact List.mem_map.mpr ⟨whole, List.mem_filter.mpr ⟨inside, by simp [needs, some]⟩, named⟩

lemma probe_follows : (probe fuel o req).Follows (Step (scopeOf o req)) (Finished o req fuel) {} := by
  unfold probe
  split
  · rename_i nowhere
    exact ⟨Watch.idle_start, fun response same => (by cases same), fun _ => rfl, fun somewhere => absurd nowhere somewhere⟩
  · split
    · rename_i multi
      exact probeDomains_follows multi
    · rename_i single
      have single : req.domains = [] := not_not.mp single
      split
      · rename_i nobody
        refine ⟨Watch.idle_start, fun response same => (by cases same), fun _ => rfl, fun _ some => absurd ?_ some⟩
        simp [Request.addrs, single, nobody]
      · exact (probeSingle_follows single).andThen fun response w' probed => .ok probed

/-- A request keeps to the protocol, whoever it talks to, and leaves what `Finished` says. -/
lemma Probe_follows (fuel : Nat) (o : Options) (req : Request) :
    (Probe fuel o req).Follows (Step (scopeOf o req)) (Finished o req fuel) {} := by
  refine probe_follows.andThen fun found w' finished => ?_
  match found, finished with
  | some (.ok response), finished =>
    exact quiet_then (grouping_only _ _) fun ⟨family, ok⟩ => .ok (finished.probed response rfl)
  | some (.error text), finished => exact finished
  | none, finished => exact finished

lemma Probe_answers {S : Type} {W : World calls S} {s t : S} {tr : Trace calls} {found : Option (Except Str Response)}
    (host : req.mxHost ≠ []) (asked : req.addrs ≠ []) (enough : req.addrs.length ≤ fuel)
    (run : Runs W (Probe fuel o req) s tr (.done found) t) : ∃ response, found = some (.ok response) := by
  obtain ⟨w, -, finished⟩ := (Probe_follows fuel o req).path run
  have finished : Finished o req fuel found w := finished
  match found, finished with
  | none, finished => exact absurd (finished.ends enough) (by simp)
  | some (.error text), finished => exact absurd rfl (finished.accepted host asked text)
  | some (.ok response), _ => exact ⟨response, rfl⟩

end

end EmailVerifier.Prober
