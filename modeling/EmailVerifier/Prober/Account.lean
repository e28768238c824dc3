import EmailVerifier.Prober.Booking

/-! A session accounts for every address and every domain it is given.

The addresses are answered, given up or handed back, and a domain that had an address
accepted has its catch-all verdict, unless the books show what came in between.
-/

set_option autoImplicit false

namespace EmailVerifier.Prober
open Text Data Semantics
open Ledger (Calm)

/-- Every verdict that was reached says whether the domain is a catch-all. -/
def Telling (verdicts : Verdicts) : Prop :=
  ∀ domain v, verdicts.lookup domain = some v → v.decided = true → v.catchAll.isSome = true

/-- A domain that was to be asked, and had an address accepted, has its verdict, unless
something went wrong. -/
def Questioned (l : Ledger) (out : Results) (verdicts : Verdicts) (g : SessionGroup) : Prop :=
  g.askCatchAll = true → g.domain ≠ [] → l.Smooth → (∃ addr ∈ g.addrs, ValidIn out addr) →
    ∃ v, verdicts.lookup g.domain = some v ∧ v.catchAll.isSome = true

structure Apart (g g' : SessionGroup) : Prop where
  domain : g.domain ≠ g'.domain
  addrs : g.addrs.Disjoint g'.addrs

lemma Telling.insert {verdicts : Verdicts} {domain : Str} {v : CatchAllVerdict} (sound : Telling verdicts)
    (fine : v.decided = true → v.catchAll.isSome = true) : Telling (verdicts.insert domain v) := by
  intro other w found
  rw [Table.lookup_insert_ite] at found
  split at found
  · cases found
    exact fine
  · exact sound other w found

def Named (groups : List SessionGroup) (verdicts : Verdicts) : Prop :=
  ∀ domain v, verdicts.lookup domain = some v → ∃ g ∈ groups, g.domain = domain ∧ g.askCatchAll = true

lemma Named.mono {groups more : List SessionGroup} {verdicts : Verdicts} (named : Named groups verdicts)
    (within : groups ⊆ more) : Named more verdicts := by
  intro domain v found
  obtain ⟨g, member, same⟩ := named domain v found
  exact ⟨g, within member, same⟩

lemma Named.insert {groups : List SessionGroup} {verdicts : Verdicts} {g : SessionGroup} {v : CatchAllVerdict}
    (named : Named groups verdicts) (member : g ∈ groups) (asks : g.askCatchAll = true) :
    Named groups (verdicts.insert g.domain v) := by
  intro other w found
  rw [Table.lookup_insert_ite] at found
  split at found
  · rename_i same
    exact ⟨g, member, same.symm, asks⟩
  · exact named other w found

lemma Telling.empty : Telling ∅ := fun domain v found => by simp at found

structure Opening (start l : Ledger) : Prop where
  heard : l.heard = start.heard
  run : l.policyRun = 0
  grown : start.mishaps <+: l.mishaps

lemma Opening.moved {start l l' : Ledger} (opening : Opening start l) (calm : Calm l l') : Opening start l' :=
  ⟨calm.heard.trans opening.heard, calm.run.trans opening.run, opening.grown.trans calm.grown⟩

lemma suffers_blames (l : Ledger) (mishap : Mishap) : (l.suffers mishap true).mishaps ≠ [] := by
  simp [Ledger.suffers]

section
variable [Unicode] {o : Options} {req : Request} {stop : Int} {A B : Type} {conn : Conn}
  {post : B → Ledger → Prop} {addrs left : List Str} {p p' : Progress} {start l l' : Ledger}
  {done more : List Heard} {exit : Exit} {addr : Str} {past groups : List SessionGroup} {g : SessionGroup}

structure Account (o : Options) (groups : List SessionGroup) (start l : Ledger) (exit : Exit) : Prop where
  tally : Tally o start l [] (groups.flatMap SessionGroup.addrs) exit
  sound : Telling exit.verdicts
  named : Named groups exit.verdicts
  asked : ∀ g ∈ groups, Questioned l exit.results exit.verdicts g
  grown : start.mishaps <+: l.mishaps

/-- Between two domains, with the groups `past` behind and `groups` ahead. -/
structure Midway (o : Options) (start l : Ledger) (past groups : List SessionGroup) (done : List Heard)
    (p : Progress) : Prop where
  booking : Booking o start l done p
  apart : (past ++ groups).Pairwise Apart
  covers : done.map Heard.addr = past.flatMap SessionGroup.addrs
  sound : Telling p.verdicts
  named : Named past p.verdicts
  asked : ∀ g ∈ past, Questioned l p.out p.verdicts g
  grown : start.mishaps <+: l.mishaps

section
variable (midway : Midway o start l past groups done p)
include midway

lemma Midway.unanswered (ahead : g ∈ groups) (member : addr ∈ g.addrs) : ¬ ValidIn p.out addr := by
  rintro ⟨r, found, -⟩
  rw [midway.booking.out] at found
  obtain ⟨h, here, rfl, -⟩ := booked_from found
  have behind : h.addr ∈ past.flatMap SessionGroup.addrs := midway.covers ▸ List.mem_map_of_mem here
  obtain ⟨g', earlier, inside⟩ := List.mem_flatMap.mp behind
  exact ((List.pairwise_append.mp midway.apart).2.2 g' earlier g ahead).addrs inside member

lemma Midway.behind (earlier : g ∈ past) (member : addr ∈ g.addrs) : addr ∉ groups.flatMap SessionGroup.addrs := by
  intro ahead
  obtain ⟨g', later, inside⟩ := List.mem_flatMap.mp ahead
  exact ((List.pairwise_append.mp midway.apart).2.2 g earlier g' later).addrs member inside

lemma Midway.keeps (earlier : g ∈ past)
    (tally : Tally o start l' done (groups.flatMap SessionGroup.addrs) exit) (verdicts : exit.verdicts = p.verdicts)
    (grown : l.mishaps <+: l'.mishaps) : Questioned l' exit.results exit.verdicts g := by
  rintro asks named smooth ⟨addr, member, valid⟩
  rw [verdicts]
  refine midway.asked g earlier asks named (smooth.before grown) ⟨addr, member, ?_⟩
  rw [midway.booking.out]
  exact tally.validIn (midway.behind earlier member) valid

lemma Midway.account (tally : Tally o start l' done (groups.flatMap SessionGroup.addrs) exit) (verdicts : exit.verdicts = p.verdicts)
    (grown : l.mishaps <+: l'.mishaps) (barren : ∀ g ∈ groups, Questioned l' exit.results exit.verdicts g) :
    Account o (past ++ groups) start l' exit where
  tally := by
    rw [List.flatMap_append, ← midway.covers]
    exact Tally.after done tally
  sound := verdicts ▸ midway.sound
  named := verdicts ▸ midway.named.mono (List.subset_append_left past groups)
  asked g member := by
    rcases List.mem_append.mp member with earlier | later
    · exact midway.keeps earlier tally verdicts grown
    · exact barren g later
  grown := midway.grown.trans grown

end

lemma Midway.pass {v : CatchAllVerdict} (midway : Midway o start l past (g :: groups) done p)
    (booking : Booking o start l' (done ++ more) p') (named : more.map Heard.addr = g.addrs)
    (grown : l.mishaps <+: l'.mishaps)
    (verdicts : p'.verdicts = if g.askCatchAll then p.verdicts.insert g.domain v else p.verdicts)
    (fine : v.decided = true → v.catchAll.isSome = true)
    (answered : g.askCatchAll = true → l'.Smooth → g.domain ≠ [] → (∃ addr ∈ g.addrs, ValidIn p'.out addr) →
      v.catchAll.isSome = true) :
    Midway o start l' (past ++ [g]) groups (done ++ more) p' where
  booking := booking
  apart := by
    rw [List.append_assoc]
    exact midway.apart
  covers := by rw [List.map_append, midway.covers, named, List.flatMap_append, List.flatMap_singleton]
  sound := by
    rw [verdicts]
    split
    · exact midway.sound.insert fine
    · exact midway.sound
  named := by
    have before := midway.named.mono (List.subset_append_left past [g])
    rw [verdicts]
    split
    · rename_i asks
      exact before.insert (List.mem_append_right _ (List.mem_singleton.mpr rfl)) asks
    · exact before
  asked := by
    intro g' member asks filled smooth
    rintro ⟨addr, inside, valid⟩
    rcases List.mem_append.mp member with earlier | here
    · have other : g'.domain ≠ g.domain :=
        ((List.pairwise_append.mp midway.apart).2.2 g' earlier g List.mem_cons_self).domain
      have before : ValidIn p.out addr := by
        obtain ⟨r, found, accepted⟩ := valid
        have fresh : addr ∉ more.map Heard.addr := by
          rw [named]
          intro mine
          exact midway.behind earlier inside (List.mem_flatMap.mpr ⟨g, List.mem_cons_self, mine⟩)
        rw [booking.out, booked_other fresh, ← midway.booking.out] at found
        exact ⟨r, found, accepted⟩
      obtain ⟨w, found, settled⟩ := midway.asked g' earlier asks filled (smooth.before grown) ⟨addr, inside, before⟩
      refine ⟨w, ?_, settled⟩
      rw [verdicts]
      split
      · rw [Table.lookup_insert_ite, if_neg other]
        exact found
      · exact found
    · rw [List.mem_singleton.mp here] at asks filled inside ⊢
      refine ⟨v, ?_, answered asks smooth filled ⟨addr, inside, valid⟩⟩
      rw [verdicts, if_pos asks, Table.lookup_insert_ite, if_pos rfl]
  grown := midway.grown.trans grown

lemma Midway.halted (midway : Midway o start l past (g :: groups) done p)
    (halted : Halted o start l l' done g.addrs (g.addrs ++ groups.flatMap SessionGroup.addrs) p exit) :
    Account o (past ++ g :: groups) start l' exit := by
  refine midway.account halted.tally halted.verdicts halted.grown ?_
  rintro g' member - - smooth ⟨addr, inside, valid⟩
  rcases List.mem_cons.mp member with rfl | later
  · exact absurd valid (halted.barren smooth addr inside)
  · rcases halted.valid addr valid with here | before
    · have apart := (List.pairwise_cons.mp (List.pairwise_append.mp midway.apart).2.1).1 g' later
      exact absurd inside (apart.addrs here)
    · exact absurd before (midway.unanswered member inside)

lemma Midway.turned (midway : Midway o start l past groups done p)
    (turned : Turned o start l l' done (groups.flatMap SessionGroup.addrs) p exit) :
    Account o (past ++ groups) start l' exit := by
  refine midway.account turned.tally turned.verdicts turned.grown ?_
  rintro g' member - - - ⟨addr, inside, valid⟩
  exact absurd (turned.valid addr valid) (midway.unanswered member inside)

lemma askGroup_booked {further : Bool} {f : Except Exit Progress → Act B} (limit : stop = o.policyStopFor req)
    (midway : Midway o start l past (g :: groups) done p) (same : further = l.further)
    (passed : ∀ l' p' more, Midway o start l' (past ++ [g]) groups (done ++ more) p' → l'.grouped = l.grouped →
      l'.mails = l.mails → (f (.ok p')).Follows (Books o stop) post l')
    (halted : ∀ l' exit, Account o (past ++ g :: groups) start l' exit →
      (f (.error exit)).Follows (Books o stop) post l') :
    (askGroup o req conn further (groups.flatMap SessionGroup.addrs) g p >>= f).Follows (Books o stop) post l := by
  have held : Held g.addrs l p := fun addr member valid => absurd valid (midway.unanswered List.mem_cons_self member)
  refine .bind (askAddrs_booked limit midway.booking same (fun _ member => member) held ?_
    fun l' exit broken => halted l' exit (midway.halted broken))
  intro mid p₁ more named booking _ round
  dsimp only
  split
  · rename_i asks
    refine askCatchAll_booked fun l' v calm fine answered => ?_
    refine passed l' _ more ?_ (calm.grouped.trans round.grouped) (calm.mails.trans round.mails)
    refine midway.pass ⟨booking.out, calm.heard.trans booking.heard, calm.run.trans booking.run, booking.taken⟩ named
      (round.grown.trans calm.grown) ?_ fine fun _ => answered
    rw [if_pos asks]
    exact congrArg (fun verdicts => AList.insert g.domain v verdicts) round.verdicts
  · rename_i quiet
    refine passed mid p₁ more ?_ round.grouped round.mails
    refine midway.pass booking named round.grown (v := {}) ?_ (fun decided => by cases decided)
      fun asks => absurd asks quiet
    rw [if_neg quiet]
    exact round.verdicts

lemma Midway.all (midway : Midway o start l past [] done p) (calm : Calm l l') :
    Account o past start l' { results := p.out, verdicts := p.verdicts } := by
  have heard : l'.heard = start.heard ++ (done ++ []) := by
    rw [calm.heard, List.append_nil]
    exact midway.booking.heard
  have account : Account o (past ++ []) start l' { results := p.out, verdicts := p.verdicts } :=
    midway.account (.handBack [] midway.booking.out heard midway.booking.taken (by simp)) rfl calm.grown (by simp)
  rwa [List.append_nil] at account

variable {grouped : Bool} {f : Except Exit Reply → Act B}

lemma askGroups_further_booked (limit : stop = o.policyStopFor req)
    (midway : Midway o start l past groups done p) (kind : l.grouped = grouped) (begun : 1 ≤ l.mails) :
    (askGroups o req conn grouped false groups p).Follows (Books o stop)
      (fun exit l' => Account o (past ++ groups) start l' exit) l := by
  induction groups generalizing l past done p with
  | nil =>
    rw [List.append_nil]
    exact teardown_booked fun l' calm => midway.all calm
  | cons g groups ih =>
    refine nextTransaction_booked midway.booking ?_ fun l' exit turned => midway.turned turned
    intro mid booking grouped' mails accepted grown
    have midway' : Midway o start mid past (g :: groups) done p :=
      ⟨booking, midway.apart, midway.covers, midway.sound, midway.named,
        fun g' earlier asks named smooth => midway.asked g' earlier asks named (smooth.before grown),
        midway.grown.trans grown⟩
    refine askGroup_booked limit midway' ?_ ?_ fun l' exit account => account
    · have two : 1 < mid.mails := by omega
      simp [Dialogue.further, grouped', kind, two]
    · intro last p' more passed kept round
      refine (ih passed (kept.trans (grouped'.trans kind)) (by omega)).mono fun exit l' account => ?_
      rwa [List.append_assoc, List.singleton_append] at account

lemma askGroups_booked (limit : stop = o.policyStopFor req)
    (midway : Midway o start l [] groups [] p) (kind : l.grouped = grouped) (begun : l.mails = 1) :
    (askGroups o req conn grouped true groups p).Follows (Books o stop)
      (fun exit l' => Account o groups start l' exit) l := by
  cases groups with
  | nil => exact teardown_booked fun l' calm => midway.all calm
  | cons g groups =>
    refine .bind (askGroup_booked limit midway ?_ ?_ fun l' exit account => account)
    · simp [Dialogue.further, begun]
    · intro mid p' more passed kept round
      exact askGroups_further_booked limit passed (kept.trans kind) (by omega)

section
variable (opening : Opening start l)
include opening

lemma Opening.booking : Booking o start l [] {} :=
  ⟨rfl, opening.heard.trans (List.append_nil _).symm, opening.run, by simp⟩

lemma Account.failAll {r : Result} (none : Unanswered r) (blame : l.mishaps ≠ []) :
    Account o groups start l (failAll (groups.flatMap SessionGroup.addrs) r) where
  tally := .giveUp opening.booking none blame
  sound := .empty
  named := fun domain v found => by simp [Prober.failAll] at found
  asked := by
    rintro g member - - - ⟨addr, inside, valid⟩
    obtain ⟨r, found, -⟩ := unattempted_validIn (p := {}) none valid
    simp at found
  grown := opening.grown

variable (failed : ∀ l' exit, Account o groups start l' exit → (f (.error exit)).Follows (Books o stop) post l')
include failed

lemma wanted_or_turned {want : Int} {reply : Reply}
    (turns : l.turnsAway o reply = decide (reply.code ≠ want))
    (met : (f (.ok reply)).Follows (Books o stop) post l) :
    ((if reply.code = want then pure (.ok reply)
      else do
        observe o req.mxHost (beforeRCPT o reply)
        refused o req.mxHost (beforeRCPT o reply) reply.text
        pure (.error (Prober.failAll (groups.flatMap SessionGroup.addrs)
          (failure o (beforeRCPT o reply) reply.code reply.text [])))) : Act (Except Exit Reply)).Follows
      (Books o stop) (fun answer l' => (f answer).Follows (Books o stop) post l')
      (l.suffers .turnedAway (l.turnsAway o reply)) := by
  rw [turns]
  split
  · rename_i wanted
    rw [decide_eq_false (not_not.mpr wanted)]
    exact met
  · rename_i other
    rw [decide_eq_true other]
    refine quiet_booked (observe_only _ _ _) fun _ => quiet_booked (refused_only _ _ _ _) fun _ => failed _ _ ?_
    exact .failAll (opening.moved (Calm.rfl.suffers _ _)) (failure_unanswered (beforeRCPT_not_verdict o reply))
      (suffers_blames _ _)

lemma banner_expected (fresh : l.due = none) (met : ∀ reply, (f (.ok reply)).Follows (Books o stop) post l) :
    (expect o req (groups.flatMap SessionGroup.addrs) conn none 220 >>= f).Follows (Books o stop) post l := by
  refine .bind (banner_booked (fun reply => ?_) fun err => failed _ _ ?_)
  · have heard : l.hear o stop reply = l.suffers .turnedAway (l.turnsAway o reply) := by
      simp only [Ledger.hear, fresh]
    rw [heard]
    exact wanted_or_turned opening failed (by simp only [Ledger.turnsAway, fresh]) (met reply)
  · exact .failAll (opening.moved (Calm.rfl.suffers _ _)) (failure_unanswered (classifyNetErr_not_verdict err))
      (suffers_blames _ _)

lemma ehlo_expected {helo : Str} (met : ∀ reply l', Calm l l' → (f (.ok reply)).Follows (Books o stop) post l') :
    (expect o req (groups.flatMap SessionGroup.addrs) conn (some (.ehlo helo)) 250 >>= f).Follows
      (Books o stop) post l := by
  have asking : Calm l (l.write (.ehlo helo)) := Calm.rfl.write rfl
  refine .bind (step_booked (fun reply => ?_) fun err => failed _ _ ?_)
  · exact wanted_or_turned (opening.moved asking) failed rfl (met reply _ asking)
  · exact .failAll (opening.moved (asking.suffers _ _)) (failure_unanswered (classifyNetErr_not_verdict err))
      (suffers_blames _ _)

end

lemma negotiate_booked {ehlo : Str} {f : Secured → Act B}
    (rest : ∀ secured l', Calm l l' → (∀ err, secured = .failed err → req.skipTLS = false) →
      (f secured).Follows (Books o stop) post l') : (negotiate o req conn ehlo >>= f).Follows (Books o stop) post l := by
  refine .bind ?_
  unfold negotiate
  split
  · exact rest _ _ .rfl nofun
  · rename_i first
    have first : req.skipTLS = false := Bool.eq_false_iff.mpr first
    split
    · exact rest _ _ .rfl nofun
    · refine quiet_booked (tlsBroken_only _ _) fun broken => ?_
      split
      · exact rest _ _ .rfl nofun
      · have asking : Calm l (l.write .startTLS) := Calm.rfl.write rfl
        refine step_booked (fun reply => ?_) fun err => rest _ _ (asking.suffers _ _) fun _ _ => first
        change Prog.Follows _ _ _ (l.write .startTLS)
        dsimp only
        split
        · exact rest _ _ asking fun _ _ => first
        · refine .bind (.ask fun answer => ⟨_, rfl, ?_⟩)
          cases answer <;> exact rest _ _ asking fun _ _ => first

lemma transact_booked (limit : stop = o.policyStopFor req) (apart : groups.Pairwise Apart)
    (opening : Opening start l) (kind : l.grouped = grouped) (fresh : l.mails = 0) :
    (transact o req groups grouped conn).Follows (Books o stop) (fun exit l' => Account o groups start l' exit) l := by
  let mailed := l.write (.mailFrom (req.mailFromFor o))
  have opening' : Opening start mailed := ⟨opening.heard, opening.run, opening.grown⟩
  have one : mailed.mails = 1 := by
    change l.mails + 1 = 1
    rw [fresh]
  refine .bind (step_booked (fun reply => ?_) fun err => ?_)
  · refine wanted_or_turned opening' (fun l' exit account => by exact account) ?_ ?_
    · have few : mailed.mails ≤ 1 := Nat.le_of_eq one
      change (decide (reply.code ≠ 250) && (decide (mailed.mails ≤ 1) || _ || _)) = _
      simp [few]
    · refine askGroups_booked limit ⟨opening'.booking, apart, rfl, .empty, fun _ _ found => by simp at found, by simp, opening'.grown⟩ kind one
  · exact .failAll (opening'.moved (Calm.rfl.suffers _ _)) (failure_unanswered (classifyNetErr_not_verdict err))
      (suffers_blames _ _)

def Talk.Accounted (o : Options) (req : Request) (groups : List SessionGroup) (start : Ledger) :
    Talk → Ledger → Prop
  | .ended _ _ exit, l => Account o groups start l exit
  | .rerun _, l => req.skipTLS = false ∧ Opening start l

lemma converse_booked (limit : stop = o.policyStopFor req) (apart : groups.Pairwise Apart)
    (opening : Opening start l) (kind : l.grouped = grouped) (fresh : l.mails = 0) (due : l.due = none) :
    (converse o req groups grouped conn).Follows (Books o stop) (fun talk l' => talk.Accounted o req groups start l') l := by
  refine banner_expected opening (fun l' exit account => by exact account) due fun banner => ?_
  refine ehlo_expected opening (fun l' exit account => by exact account) fun ehlo l₁ calm₁ => ?_
  refine negotiate_booked fun secured l₂ calm₂ first => ?_
  have calm : Calm l l₂ := calm₁.trans calm₂
  have opening₂ : Opening start l₂ := opening.moved calm
  cases secured with
  | failed err => exact ⟨first err rfl, opening₂⟩
  | plain outcome =>
    exact (transact_booked limit apart opening₂ (calm.grouped.trans kind) (calm.mails.trans fresh)).andThen
      fun exit l' account => account
  | upgraded verified =>
    refine ehlo_expected opening₂ (fun l' exit account => by exact account) fun again l₃ calm₃ => ?_
    exact (transact_booked limit apart (opening₂.moved calm₃) (calm₃.grouped.trans (calm.grouped.trans kind))
      (calm₃.mails.trans (calm.mails.trans fresh))).andThen fun exit l' account => account

lemma vet_booked {f : Except Exit (List Addr) → Act B} (opening : Opening start l)
    (vetted : ∀ ips l', Calm l l' → (ips = [] → l'.mishaps ≠ []) → (f (.ok ips)).Follows (Books o stop) post l')
    (failed : ∀ l' exit, Account o groups start l' exit → (f (.error exit)).Follows (Books o stop) post l') :
    (vet o req (groups.flatMap SessionGroup.addrs) >>= f).Follows (Books o stop) post l := by
  have resolved : (resolveHost o req (groups.flatMap SessionGroup.addrs)).Follows (Books o stop)
      (fun a l' => (f a).Follows (Books o stop) post l') l := by
    refine .bind (.ask fun answer => ⟨_, rfl, ?_⟩)
    cases answer with
    | ok ips =>
      refine vetted ips _ (Calm.rfl.suffers _ _) fun empty => ?_
      change (l.suffers .turnedAway (decide (ips = []))).mishaps ≠ []
      rw [decide_eq_true empty]
      exact suffers_blames _ _
    | error err =>
      refine failed _ _ (.failAll (opening.moved (Calm.rfl.suffers _ _)) (failure_unanswered ?_) (suffers_blames _ _))
      split
      · simp [Class.IsVerdict]
      · exact classifyNetErr_not_verdict err
  refine .bind (.bind ?_)
  unfold standDown
  split
  · refine .ask fun answer => ⟨_, rfl, ?_⟩
    obtain ⟨yes, why⟩ := answer
    cases yes with
    | true =>
      exact failed _ _ (.failAll (opening.moved (Calm.rfl.suffers _ _))
        (failure_unanswered (by simp [Class.IsVerdict])) (suffers_blames _ _))
    | false => exact resolved
  · exact resolved

lemma leaseSession_booked {f : Except Failure (Option Lease) → Act B}
    (granted : ∀ lease, (f (.ok lease)).Follows (Books o stop) post l)
    (denied : ∀ err, (f (.error err)).Follows (Books o stop) post (l.suffers .failed true)) :
    (leaseSession o req >>= f).Follows (Books o stop) post l := by
  refine .bind ?_
  unfold leaseSession
  split
  · refine .bind (.ask fun answer => ⟨_, rfl, ?_⟩)
    cases answer with
    | ok lease => exact quiet_booked (notify_only _ _) fun _ => granted _
    | error err => exact denied err
  · exact granted _

lemma dialAny_booked {ips : List Addr} {lastErr : Failure} {f : Except Failure Conn → Act B}
    (opening : Opening start l) (kind : l.grouped = grouped) (blame : ips = [] → l.mishaps ≠ [])
    (dialled : ∀ conn l', Opening start l' → l'.grouped = grouped → l'.mails = 0 → l'.due = none →
      (f (.ok conn)).Follows (Books o stop) post l')
    (undialled : ∀ err l', Opening start l' → l'.mishaps ≠ [] → (f (.error err)).Follows (Books o stop) post l') :
    (dialAny o ips lastErr >>= f).Follows (Books o stop) post l := by
  induction ips generalizing l lastErr with
  | nil => exact undialled _ _ opening (blame rfl)
  | cons a more ih =>
    refine .bind (.bind (.ask fun answer => ⟨_, rfl, ?_⟩))
    cases answer with
    | ok socket => exact dialled _ _ ⟨opening.heard, opening.run, opening.grown⟩ kind rfl rfl
    | error err =>
      exact .of_bind (ih (opening.moved (Calm.rfl.suffers _ _)) kind fun _ => suffers_blames _ _)

lemma connect_booked {ips : List Addr} {f : Except Exit Conn → Act B} (opening : Opening start l)
    (kind : l.grouped = grouped) (blame : ips = [] → l.mishaps ≠ [])
    (connected : ∀ conn l', Opening start l' → l'.grouped = grouped → l'.mails = 0 → l'.due = none →
      (f (.ok conn)).Follows (Books o stop) post l')
    (failed : ∀ l' exit, Account o groups start l' exit → (f (.error exit)).Follows (Books o stop) post l') :
    (connect o req (groups.flatMap SessionGroup.addrs) ips >>= f).Follows (Books o stop) post l := by
  refine .bind (acquire_booked ?_ fun err => failed _ _ ?_)
  · refine dialAny_booked opening kind blame (fun conn l' opening' kind' fresh due => ?_) fun err l' opening' blame' => ?_
    · exact .bind (.ask fun _ => ⟨_, rfl, connected conn l' opening' kind' fresh due⟩)
    · exact failed _ _ (.failAll opening' (failure_unanswered (classifyNetErr_not_verdict err)) blame')
  · exact .failAll (opening.moved (Calm.rfl.suffers _ _)) (budgetFailure_unanswered err) (suffers_blames _ _)

lemma Account.mapVals {f : Str → Result → Result} (account : Account o groups start l exit)
    (still : ∀ addr r, Unanswered r → Unanswered (f addr r))
    (same : ∀ addr r, r.connected = some true → (f addr r).SameAnswer r)
    (accepted : ∀ addr r, (f addr r).cls = .valid → r.cls = .valid) :
    Account o groups start l { exit with results := exit.results.mapVals f } where
  tally := by
    obtain ⟨more, again, lost, found⟩ := account.tally
    exact ⟨more, again, lost, { found with recorded := found.recorded.mapVals still same }⟩
  sound := account.sound
  named := account.named
  asked := by
    rintro g member asks named smooth ⟨addr, inside, r, found, valid⟩
    rw [Table.lookup_mapVals] at found
    obtain ⟨s, here, rfl⟩ := Option.map_eq_some_iff.mp found
    exact account.asked g member asks named smooth ⟨addr, inside, s, here, accepted addr s valid⟩
  grown := account.grown

lemma stampTLS_booked {tls : Option TLSOutcome} {f : Exit → Act B} (account : Account o groups start l exit)
    (rest : ∀ stamped, Account o groups start l stamped → (f stamped).Follows (Books o stop) post l) :
    (stampTLS o groups exit tls >>= f).Follows (Books o stop) post l := by
  refine .bind ?_
  cases tls with
  | none => exact rest exit account
  | some outcome =>
    refine quiet_booked (notify_only _ _) fun _ => quiet_booked (notify_only _ _) fun _ => rest _ ?_
    exact account.mapVals (fun _ r none => ⟨none.connected, none.accepted, none.cls⟩) (fun _ r _ => rfl) fun _ r valid => valid

lemma Account.afterRerun {upErr : Failure} {mid : Ledger} (account : Account o groups mid l exit)
    (opening : Opening start mid) :
    Account o groups start l { exit with results := exit.results.mapVals fun _ r => afterRerun o upErr r } := by
  have whole : Account o groups start l exit := by
    obtain ⟨more, again, lost, found⟩ := account.tally
    exact { account with
      tally := ⟨more, again, lost, { found with heard := by rw [found.heard, opening.heard] }⟩
      grown := opening.grown.trans account.grown }
  refine whole.mapVals (fun _ r none => ?_) (fun _ r connected => ?_) fun _ r valid => ?_
  · unfold Prober.afterRerun
    split
    · exact ⟨none.connected, none.accepted, by simp [Class.IsVerdict]⟩
    · exact none
  · have reached : unreached r = false := by simp [unreached, connected]
    rw [Prober.afterRerun, reached]
    exact .rfl
  · unfold Prober.afterRerun at valid
    split at valid
    · cases valid
    · exact valid

lemma finish_booked (account : Account o groups start l exit) :
    (finish exit).Follows (Books o stop) (fun exit l' => Account o groups start l' exit) l :=
  .bind (.ask fun _ => ⟨_, rfl, account⟩)

lemma releaseLease_booked {lease : Option Lease} {f : Unit → Act B}
    (rest : (f ()).Follows (Books o stop) post l) : (releaseLease lease >>= f).Follows (Books o stop) post l := by
  cases lease with
  | none => exact rest
  | some lease => exact .bind (.ask fun _ => ⟨_, rfl, rest⟩)

lemma sessionBody_booked (req : Request) {again : Request → Act Exit}
    (limit : stop = o.policyStopFor req) (apart : groups.Pairwise Apart)
    (rerun : req.skipTLS = false → ∀ l', (again { req with skipTLS := true }).Follows (Books o stop)
      (fun exit l'' => Account o groups l' l'' exit) l') :
    (sessionBody o again req groups grouped).Follows (Books o stop) (fun exit l' => Account o groups l l' exit) l := by
  refine .bind (.ask fun _ => ⟨_, rfl, ?_⟩)
  have opening : Opening l (l.next o stop ⟨.enter groups grouped, ()⟩) := ⟨rfl, rfl, List.prefix_rfl⟩
  refine vet_booked opening (fun ips l₁ calm₁ blame => ?_) fun l' exit account => finish_booked account
  have opening₁ := opening.moved calm₁
  refine leaseSession_booked (fun lease => ?_) fun err => ?_
  · refine connect_booked opening₁ calm₁.grouped blame (fun conn l₂ opening₂ kind fresh due => ?_)
      fun l' exit account => releaseLease_booked (finish_booked account)
    refine (converse_booked limit apart opening₂ kind fresh due).andThen fun talk l₃ talked => ?_
    cases talk with
    | ended last tls exit =>
      refine .bind (.ask fun _ => ⟨_, rfl, releaseLease_booked ?_⟩)
      exact stampTLS_booked talked fun stamped account => finish_booked account
    | rerun upErr =>
      refine quiet_booked (markTLSBroken_only _ _) fun _ => ?_
      refine .bind (.ask fun _ => ⟨_, rfl, releaseLease_booked ?_⟩)
      refine .bind (.ask fun _ => ⟨_, rfl, ?_⟩)
      refine (rerun talked.1 l₃).andThen fun exit l₄ account => ?_
      refine quiet_booked (notify_only _ _) fun _ => ?_
      exact .bind (.ask fun _ => ⟨_, rfl, account.afterRerun talked.2⟩)
  · exact finish_booked (.failAll (opening₁.moved (Calm.rfl.suffers _ _)) (budgetFailure_unanswered err)
      (suffers_blames _ _))

/-- A session accounts for its groups, whoever it talks to. -/
lemma session_accounts (limit : stop = o.policyStopFor req) (apart : groups.Pairwise Apart) :
    (session o req groups grouped).Follows (Books o stop) (fun exit l' => Account o groups l l' exit) l := by
  refine sessionBody_booked req limit apart fun _ l' => ?_
  exact sessionBody_booked { req with skipTLS := true } limit apart fun second => absurd second (by simp)

end

end EmailVerifier.Prober
