import EmailVerifier.Iphealth.Health

/-! What it takes to burn the node.

A zone is watched once a self-test has vouched for it, and a round burns the node when a
zone it watches lists the address. What a call has done is read off its trace.
-/

set_option autoImplicit false

namespace EmailVerifier.Iphealth
open Text Data Semantics

def verdict : Reply → Option Bool
  | .error err => if err.notFound then some false else none
  | .ok addrs => some (addrs.any listing)

variable {zone point : Str} {reply : Reply} {did : Trace calls}

lemma readReply_ok {listed : Bool} (read : readReply zone reply = .ok listed) : verdict reply = some listed := by
  unfold readReply at read
  split at read
  · split at read
    · rename_i err notFound
      cases read
      exact if_pos notFound
    · cases read
  · cases read
    rfl

lemma readReply_error {err : Str} (read : readReply zone reply = .error err) : verdict reply = none := by
  unfold readReply at read
  split at read
  · split at read
    · cases read
    · rename_i err failed
      exact if_neg failed
  · cases read

def heard (did : Trace calls) : List (Str × Reply) :=
  did.flatMap fun
    | ⟨.lookup name, reply⟩ => [(name, reply)]
    | _ => []

def kept (did : Trace calls) : List Str :=
  did.flatMap fun
    | ⟨.keep zones, _⟩ => zones
    | _ => []

@[simp] lemma heard_append (did more : Trace calls) : heard (did ++ more) = heard did ++ heard more :=
  List.flatMap_append

@[simp] lemma kept_append (did more : Trace calls) : kept (did ++ more) = kept did ++ kept more :=
  List.flatMap_append

@[simp] lemma kept_keep (zones : List Str) : kept [⟨.keep zones, ()⟩] = zones := List.append_nil _

def Heard (did : Trace calls) (point zone : Str) (said : Option Bool) : Prop :=
  ∃ reply, (queryName point zone, reply) ∈ heard did ∧ verdict reply = said

def Vouched (did : Trace calls) (zone : Str) : Prop :=
  Heard did (lit "2.0.0.127") zone (some true) ∧
  ∃ point ∈ [lit "1.0.0.127", lit "1.2.0.192", lit "1.113.0.203"], Heard did point zone (some false)

lemma Heard.append {said : Option Bool} (found : Heard did point zone said)
    (more : Trace calls) : Heard (did ++ more) point zone said := by
  obtain ⟨reply, member, read⟩ := found
  exact ⟨reply, by simp [member], read⟩

lemma Vouched.append (vouched : Vouched did zone) (more : Trace calls) : Vouched (did ++ more) zone := by
  obtain ⟨listed, point, member, clean⟩ := vouched
  exact ⟨listed.append more, point, member, clean.append more⟩

lemma queryName_inj {zone' : Str} (same : queryName point zone = queryName point zone') : zone = zone' :=
  List.append_cancel_left same

-- Only the lookup of its name adds to what was heard of a zone.
lemma heard_snoc {zone' : Str} {said : Option Bool} :
    Heard (did ++ [⟨.lookup (queryName point zone'), reply⟩]) point zone said ↔
      Heard did point zone said ∨ zone = zone' ∧ verdict reply = said := by
  constructor
  · rintro ⟨reply', member, read⟩
    rw [heard_append, List.mem_append] at member
    rcases member with old | new
    · exact .inl ⟨reply', old, read⟩
    · obtain ⟨same, rfl⟩ := Prod.mk.inj (List.mem_singleton.mp new)
      exact .inr ⟨queryName_inj same, read⟩
  · rintro (old | ⟨rfl, read⟩)
    · exact old.append _
    · exact ⟨reply, by simp [heard], read⟩

/-- A call asks for the zones after it saw that they are trusted, judges by what they said,
and keeps what it can vouch for. -/
def Orders (o : Options) (did : Trace calls) (e : Event calls) : Prop :=
  match e.op with
  | .zones => ⟨.trusted, true⟩ ∈ did
  | .judge burned _ => (burned = true ↔ ∃ zone, Heard did (reverse o.ip) zone (some true)) ∧
      ∃ zones : List Str, ⟨.zones, zones⟩ ∈ did ∧ ∀ zone, zone ∈ zones ↔ ∃ said, Heard did (reverse o.ip) zone said
  | .keep zones => ∀ zone ∈ zones, Vouched did zone
  | _ => True

def snoc (did : Trace calls) (e : Event calls) : Trace calls := did ++ [e]

abbrev Ordered (o : Options) : World calls (Trace calls) := World.guarded (Orders o) snoc

section
variable {o : Options} {did : Trace calls}

lemma query_follows (point zone : Str) : (query point zone).Follows (Ordered o)
    (fun out did' => ∃ reply, did' = did ++ [⟨.lookup (queryName point zone), reply⟩] ∧ out = readReply zone reply) did :=
  Prog.Follows.heed (fun _ => trivial) fun reply => ⟨reply, rfl, rfl⟩

lemma persist_follows (burned : Bool) (reason : Str) :
    (persist o burned reason).Follows (Ordered o) (fun _ _ => True) did := by
  unfold persist
  split
  · exact Prog.Follows.heed (fun _ => trivial) fun _ => trivial
  · trivial

lemma secondOpinion_follows (zone reported : Str) (points : List (Str × Str)) (failed : Option Str) :
    (secondOpinion zone reported points failed).Follows (Ordered o) (fun out did' => did <+: did' ∧
      ∀ caveat, out = .ok caveat → ∃ point ∈ points.map Prod.fst, Heard did' point zone (some false)) did := by
  induction points generalizing did failed with
  | nil => cases failed <;> exact ⟨List.prefix_rfl, nofun⟩
  | cons next more ih =>
    obtain ⟨point, addr⟩ := next
    refine (query_follows point zone).andThen ?_
    rintro out _ ⟨reply, rfl, rfl⟩
    -- What the points that are left say counts here too.
    have later (failed : Option Str) : (secondOpinion zone reported more failed).Follows (Ordered o)
        (fun out did' => did <+: did' ∧ ∀ caveat, out = .ok caveat →
          ∃ p ∈ ((point, addr) :: more).map Prod.fst, Heard did' p zone (some false))
        (did ++ [⟨.lookup (queryName point zone), reply⟩]) := by
      refine (ih failed).mono ?_
      rintro out did' ⟨grown, found⟩
      refine ⟨(List.prefix_append _ _).trans grown, fun caveat same => ?_⟩
      obtain ⟨p, member, clean⟩ := found caveat same
      exact ⟨p, List.mem_cons_of_mem _ member, clean⟩
    cases read : readReply zone reply with
    | error err => exact later (some err)
    | ok listed =>
      cases listed with
      | true => exact later failed
      | false =>
        refine ⟨List.prefix_append _ _, fun caveat _ => ⟨point, List.mem_cons_self, ?_⟩⟩
        exact heard_snoc.mpr (.inr ⟨rfl, readReply_ok read⟩)

lemma selfTestZone_follows (zone : Str) : (selfTestZone zone).Follows (Ordered o)
    (fun out did' => did <+: did' ∧ ∀ caveat, out = .ok caveat → Vouched did' zone) did := by
  refine (query_follows _ zone).andThen ?_
  rintro out _ ⟨first, rfl, rfl⟩
  cases read : readReply zone first with
  | error err => exact ⟨List.prefix_append _ _, nofun⟩
  | ok listed =>
    cases listed with
    | false => exact ⟨List.prefix_append _ _, nofun⟩
    | true =>
      have test : Heard (did ++ [⟨.lookup (queryName (lit "2.0.0.127") zone), first⟩]) (lit "2.0.0.127") zone (some true) :=
        heard_snoc.mpr (.inr ⟨rfl, readReply_ok read⟩)
      refine (query_follows _ zone).andThen ?_
      rintro out _ ⟨second, rfl, rfl⟩
      have grown : did <+: did ++ [⟨.lookup (queryName (lit "2.0.0.127") zone), first⟩] ++
          [⟨.lookup (queryName (lit "1.0.0.127") zone), second⟩] :=
        (List.prefix_append _ _).trans (List.prefix_append _ _)
      cases read' : readReply zone second with
      | error err => exact ⟨grown, nofun⟩
      | ok listed =>
        cases listed with
        | false =>
          refine ⟨grown, fun _ _ => ⟨test.append _, _, List.mem_cons_self, ?_⟩⟩
          exact heard_snoc.mpr (.inr ⟨rfl, readReply_ok read'⟩)
        | true =>
          refine (secondOpinion_follows zone (RedactZone zone) unlistablePoints none).mono ?_
          rintro out _ ⟨⟨more, rfl⟩, found⟩
          refine ⟨grown.trans (List.prefix_append _ _), fun caveat same => ?_⟩
          obtain ⟨point, member, clean⟩ := found caveat same
          exact ⟨(test.append _).append _, point, List.mem_cons_of_mem _ member, clean⟩

lemma testZones_follows (zones : List Str) (result : SelfTestResult) (kept : List Str)
    (vouched : ∀ zone ∈ kept, Vouched did zone) : (testZones zones (result, kept)).Follows (Ordered o)
      (fun out did' => ∀ zone ∈ out.2, Vouched did' zone) did := by
  induction zones generalizing did result kept with
  | nil => exact vouched
  | cons zone more ih =>
    refine (selfTestZone_follows zone).andThen ?_
    rintro out _ ⟨⟨grown, rfl⟩, found⟩
    have still : ∀ zone ∈ kept, Vouched (did ++ grown) zone := fun zone member => (vouched zone member).append grown
    rcases out with err | _ | caveat
    · exact ih _ _ still
    all_goals exact ih _ _ (forall_mem_snoc.mpr ⟨still, found _ rfl⟩)

lemma SelfTest_follows : (SelfTest o).Follows (Ordered o) (fun _ _ => True) did := by
  unfold SelfTest
  split
  · trivial
  apply Prog.Follows.heed (fun _ => trivial)
  intro zones
  refine (testZones_follows zones {} [] nofun).andThen ?_
  rintro ⟨result, kept⟩ did' vouched
  dsimp only
  split
  · trivial
  · exact Prog.Follows.heed (fun _ => vouched) fun _ => trivial

/-- What the loop of `Check` knows: the zones it has asked, and whether one of them listed
the address. -/
structure Asked (o : Options) (did : Trace calls) (on asked : List Str) : Prop where
  listed : on ≠ [] ↔ ∃ zone, Heard did (reverse o.ip) zone (some true)
  asked : ∀ zone, zone ∈ asked ↔ ∃ said, Heard did (reverse o.ip) zone said

lemma Asked.next {on done on' : List Str} {zone : Str} {reply : Reply} (before : Asked o did on done)
    (listed : on' ≠ [] ↔ on ≠ [] ∨ verdict reply = some true) :
    Asked o (did ++ [⟨.lookup (queryName (reverse o.ip) zone), reply⟩]) on' (done ++ [zone]) := by
  refine ⟨?_, fun other => ?_⟩
  · rw [listed, before.listed]
    simp only [heard_snoc]
    constructor
    · rintro (⟨other, said⟩ | said)
      · exact ⟨other, .inl said⟩
      · exact ⟨zone, .inr ⟨rfl, said⟩⟩
    · rintro ⟨other, said | ⟨-, said⟩⟩
      · exact .inl ⟨other, said⟩
      · exact .inr said
  · rw [List.mem_append, List.mem_singleton, before.asked]
    simp only [heard_snoc]
    constructor
    · rintro (⟨said, was⟩ | rfl)
      · exact ⟨said, .inl was⟩
      · exact ⟨verdict reply, .inr ⟨rfl, rfl⟩⟩
    · rintro ⟨said, was | ⟨same, -⟩⟩
      · exact .inl ⟨said, was⟩
      · exact .inr same

-- An event that is no lookup changes nothing.
lemma Asked.aside {on done : List Str} {e : Event calls} (before : Asked o did on done) (quiet : heard [e] = []) :
    Asked o (did ++ [e]) on done := by
  have same (zone : Str) (said : Option Bool) :
      Heard (did ++ [e]) (reverse o.ip) zone said ↔ Heard did (reverse o.ip) zone said := by
    unfold Heard
    rw [heard_append, quiet, List.append_nil]
  refine ⟨?_, fun zone => ?_⟩
  · simp only [same]
    exact before.listed
  · simp only [same]
    exact before.asked zone

lemma askZones_follows (zones : List Str) (listed : Table Str Bool) {on done : List Str} (before : Asked o did on done) :
    (askZones o zones (listed, on)).Follows (Ordered o)
      (fun out did' => did <+: did' ∧ Asked o did' out.2 (done ++ zones)) did := by
  induction zones generalizing did listed on done with
  | nil => exact ⟨List.prefix_rfl, by rwa [List.append_nil]⟩
  | cons zone more ih =>
    have step : done ++ zone :: more = done ++ [zone] ++ more := by simp
    rw [step]
    refine (query_follows (reverse o.ip) zone).andThen ?_
    rintro out _ ⟨reply, rfl, rfl⟩
    have grown : did <+: did ++ [⟨.lookup (queryName (reverse o.ip) zone), reply⟩] := List.prefix_append _ _
    cases read : readReply zone reply with
    | error err =>
      refine (ih listed (before.next ?_)).mono fun out did' after => ⟨grown.trans after.1, after.2⟩
      rw [readReply_error read]
      simp
    | ok found =>
      have now : Asked o (did ++ [⟨.lookup (queryName (reverse o.ip) zone), reply⟩])
          (if found = true then on ++ [RedactZone zone] else on) (done ++ [zone]) := by
        apply before.next
        rw [readReply_ok read]
        cases found <;> simp
      dsimp only
      split
      · apply Prog.Follows.heed (fun _ => trivial)
        intro _
        refine (ih _ (now.aside rfl)).mono fun out did' after => ⟨grown.trans ?_, after.2⟩
        exact (List.prefix_append _ _).trans after.1
      · exact (ih _ now).mono fun out did' after => ⟨grown.trans after.1, after.2⟩

lemma Check_follows : (Check o).Follows (Ordered o) (fun _ _ => True) [] := by
  unfold Check
  split
  · trivial
  apply Prog.Follows.heed (fun _ => trivial)
  intro trusted
  cases trusted with
  | false => trivial
  | true =>
    apply Prog.Follows.heed (fun _ => List.mem_singleton_self _)
    intro zones
    have first : Asked o [⟨.trusted, true⟩, ⟨.zones, zones⟩] [] [] := by
      refine ⟨⟨fun some => (some rfl).elim, ?_⟩, fun zone => ⟨nofun, ?_⟩⟩
      · rintro ⟨zone, reply, member, -⟩
        cases member
      · rintro ⟨said, reply, member, -⟩
        cases member
    refine (askZones_follows zones ∅ first).andThen ?_
    rintro ⟨listed, on⟩ did ⟨grown, after⟩
    refine Prog.Follows.heed (fun _ => ⟨?_, zones, ?_, after.asked⟩) fun _ =>
      (persist_follows _ _).andThen fun _ _ _ => trivial
    · rw [decide_eq_true_iff]
      exact after.listed
    · exact grown.subset (List.mem_cons_of_mem _ (List.mem_singleton_self _))

lemma Resume_follows : (Resume o).Follows (Ordered o) (fun _ _ => True) did :=
  Prog.Follows.heed (fun _ => trivial) fun _ => persist_follows _ _

lemma jobs_follow {p : Act Outcome} (job : p ∈ [tests o, checks o, resumes o]) :
    p.Follows (Ordered o) (fun _ _ => True) [] := by
  simp only [List.mem_cons, List.not_mem_nil, or_false] at job
  rcases job with rfl | rfl | rfl
  · exact SelfTest_follows.andThen fun _ _ _ => trivial
  · exact Check_follows.andThen fun _ _ _ => trivial
  · exact Resume_follows.andThen fun _ _ _ => trivial

end

def Kept (traces : List (Trace calls)) (zone : Str) : Prop := ∃ did ∈ traces, zone ∈ kept did

lemma Kept.grown {traces traces' : List (Trace calls)} (before : Kept traces zone)
    (grown : ∀ did ∈ traces, ∃ more, did ++ more ∈ traces') : Kept traces' zone := by
  obtain ⟨did, member, found⟩ := before
  obtain ⟨more, there⟩ := grown did member
  exact ⟨did ++ more, there, by simp [found]⟩

/-- What was kept was vouched for, what is trusted or asked was kept, and the node is
burned by a round that a zone which was kept told so. -/
structure Grounded (o : Options) (s : Shared) (traces : List (Trace calls)) : Prop where
  kept : ∀ did ∈ traces, ∀ zone ∈ kept did, Vouched did zone
  zones : s.trusted = true → ∀ zone ∈ s.zones, Kept traces zone
  trusted : ∀ did ∈ traces, ⟨.trusted, true⟩ ∈ did → s.trusted = true
  asked : ∀ did ∈ traces, ∀ zones : List Str, ⟨.zones, zones⟩ ∈ did → ∀ zone ∈ zones, Kept traces zone
  burned : s.burned = true → (∃ zone, Heard s.round (reverse o.ip) zone (some true) ∧ Kept traces zone) ∧
    ∃ did ∈ traces, s.round ++ [⟨.judge true s.reason, ()⟩] <+: did

section
variable {o : Options} {s s' : Shared} {traces traces' : List (Trace calls)}

lemma Grounded.aside (before : Grounded o s traces) (others : ∀ did ∈ traces', did = [] ∨ did ∈ traces)
    (grown : ∀ did ∈ traces, ∃ more, did ++ more ∈ traces') : Grounded o s traces' := by
  refine ⟨fun did member => ?_, fun trusted zone member => (before.zones trusted zone member).grown grown,
    fun did member => ?_, fun did member zones seen zone found => ?_, fun burned => ?_⟩
  · rcases others did member with rfl | old
    · exact nofun
    · exact before.kept did old
  · rcases others did member with rfl | old
    · exact nofun
    · exact before.trusted did old
  · rcases others did member with rfl | old
    · cases seen
    · exact (before.asked did old zones seen zone found).grown grown
  · obtain ⟨⟨zone, listed, kept⟩, did, member, judged⟩ := before.burned burned
    obtain ⟨more, there⟩ := grown did member
    exact ⟨⟨zone, listed, kept.grown grown⟩, did ++ more, there, judged.trans (List.prefix_append _ _)⟩

lemma Grounded.act {did : Trace calls} {e : Event calls} (before : Grounded o s traces) (mine : did ∈ traces)
    (orders : Orders o did e) (served : Serves s e s') (records : Records did e s') (now : did ++ [e] ∈ traces')
    (others : ∀ other ∈ traces', other = did ++ [e] ∨ other ∈ traces)
    (grown : ∀ did ∈ traces, ∃ more, did ++ more ∈ traces') : Grounded o s' traces' := by
  have remains {zone : Str} (kept : Kept traces zone) : Kept traces' zone := kept.grown grown
  have trusts : s.trusted = true → s'.trusted = true := by
    intro trusted
    cases served with
    | keep => rfl
    | _ => exact trusted
  refine ⟨fun other member zone found => ?_, fun trusted zone member => ?_, fun other member seen => ?_,
    fun other member zones seen zone found => ?_, fun burned => ?_⟩
  · rcases others other member with rfl | old
    · rw [kept_append, List.mem_append] at found
      rcases found with found | found
      · exact (before.kept did mine zone found).append _
      · cases served with
        | keep => exact (orders zone (by simpa using found)).append _
        | _ => cases found
    · exact before.kept other old zone found
  · cases served with
    | keep => exact ⟨_, now, by simpa using .inr member⟩
    | _ => exact remains (before.zones trusted zone member)
  · rcases others other member with rfl | old
    · rcases List.mem_append.mp seen with seen | seen
      · exact trusts (before.trusted did mine seen)
      · obtain rfl := List.mem_singleton.mp seen
        generalize known : (true : Bool) = answer at served
        cases served with
        | trusted => rfl
    · exact trusts (before.trusted other old seen)
  · rcases others other member with rfl | old
    · rcases List.mem_append.mp seen with seen | seen
      · exact remains (before.asked did mine zones seen zone found)
      · obtain rfl := List.mem_singleton.mp seen
        cases served with
        | zones => exact remains (before.zones (before.trusted did mine orders) zone found)
    · exact remains (before.asked other old zones seen zone found)
  · -- Only a round burns the node, on what it has heard.
    have same (round : s'.round = s.round) (reason : s'.reason = s.reason) (burned : s.burned = true) :
        (∃ zone, Heard s'.round (reverse o.ip) zone (some true) ∧ Kept traces' zone) ∧
          ∃ did ∈ traces', s'.round ++ [⟨.judge true s'.reason, ()⟩] <+: did := by
      obtain ⟨⟨zone, listed, kept⟩, did, member, judged⟩ := before.burned burned
      obtain ⟨more, there⟩ := grown did member
      rw [round, reason]
      exact ⟨⟨zone, listed, remains kept⟩, did ++ more, there, judged.trans (List.prefix_append _ _)⟩
    cases served with
    | @judge _ _ reason round =>
      obtain ⟨listed, zones, seen, all⟩ := orders
      obtain rfl : round = did := records
      obtain ⟨zone, heard⟩ := listed.mp burned
      refine ⟨⟨zone, heard, remains (before.asked _ mine zones seen zone ((all zone).mpr ⟨_, heard⟩))⟩, _, now, ?_⟩
      obtain rfl : _ = true := burned
      exact List.prefix_rfl
    | clear => cases burned
    | _ => exact same rfl rfl burned

lemma Grounded.step {pool pool' : Calls} (before : Grounded o pool.shared pool.traces)
    (orderly : pool.Orderly (Orders o) snoc (fun _ _ => True) [])
    (step : Pool.Step (node [tests o, checks o, resumes o]) pool pool') : Grounded o pool'.shared pool'.traces := by
  have grown : ∀ did ∈ pool.traces, ∃ more, did ++ more ∈ pool'.traces := fun did member => step.traces member
  rcases step.acts orderly with ⟨did, e, mine, now, orders, served, records, others⟩ | ⟨same, others⟩ | ⟨drifts, -⟩
  · have here : did.foldl snoc [] = did := foldl_snoc [] did
    rw [here] at orders
    exact before.act mine orders served records now others grown
  · rw [same]
    exact before.aside others grown
  · exact drifts.elim

lemma reached_grounded {pool : Calls} (reached : Pool.Reaches (node [tests o, checks o, resumes o]) (New o) pool) :
    Grounded o pool.shared pool.traces := by
  have first : Grounded o (New o).shared (New o).traces := ⟨nofun, nofun, nofun, nofun, nofun⟩
  exact (reached.keeps (fun pool => Grounded o pool.shared pool.traces) (fun _ job => jobs_follow job) ⟨nofun, nofun⟩ first
    fun pool pool' orderly before step => before.step orderly step).2

end

lemma listing_iff {a : Addr} : listing a = true ↔ ∃ x, a = .v4 x ∧ x >>> 24 = 127 ∧ x ≠ ip4 127 255 255 254 := by
  cases a with
  | v4 x => simp [listing]
  | _ => simp [listing]

lemma verdict_listed (listed : verdict reply = some true) :
    ∃ (addrs : List Addr) (x : BitVec 32), reply = .ok addrs ∧ .v4 x ∈ addrs ∧ x >>> 24 = 127 ∧ x ≠ ip4 127 255 255 254 := by
  cases reply with
  | error err =>
    by_cases notFound : err.notFound = true <;> simp [verdict, notFound] at listed
  | ok addrs =>
    obtain ⟨a, member, here⟩ := List.any_eq_true.mp (Option.some.inj listed)
    obtain ⟨x, rfl, loopback, answer⟩ := listing_iff.mp here
    exact ⟨addrs, x, rfl, member, loopback, answer⟩

/-- If the node is burned, the round that said so last got an answer in 127.0.0.0/8, other
than the sentinel, from a zone that a self-test kept; and whichever self-test kept it saw it
list its test point and leave a point alone that no list may have. So a resolver that never
tells names apart within one self-test cannot burn the node. -/
theorem burned_grounded {o : Options} {pool : Calls}
    (reached : Pool.Reaches (node [tests o, checks o, resumes o]) (New o) pool) :
    (pool.shared.burned = true →
      (∃ did ∈ pool.traces, pool.shared.round ++ [⟨.judge true pool.shared.reason, ()⟩] <+: did) ∧
      ∃ (zone : Str) (addrs : List Addr) (x : BitVec 32), (queryName (reverse o.ip) zone, .ok addrs) ∈ heard pool.shared.round ∧ .v4 x ∈ addrs ∧
        x >>> 24 = 127 ∧ x ≠ ip4 127 255 255 254 ∧ (∃ did ∈ pool.traces, zone ∈ kept did) ∧
        ∀ did ∈ pool.traces, zone ∈ kept did → Vouched did zone) ∧
    ((∀ did ∈ pool.traces, ∀ asked ∈ heard did, ∀ asked' ∈ heard did, asked.2 = asked'.2) →
      pool.shared.burned = false) := by
  have grounded := reached_grounded reached
  constructor
  · intro burned
    obtain ⟨⟨zone, ⟨reply, member, listed⟩, kept⟩, judged⟩ := grounded.burned burned
    obtain ⟨addrs, x, rfl, answer, loopback, real⟩ := verdict_listed listed
    exact ⟨judged, zone, addrs, x, member, answer, loopback, real, kept, fun did there => grounded.kept did there zone⟩
  · intro constant
    by_contra burned
    obtain ⟨⟨zone, -, did, there, kept⟩, -⟩ := grounded.burned (by simpa using burned)
    obtain ⟨⟨reply, asked, listed⟩, point, -, reply', asked', clean⟩ := grounded.kept did there zone kept
    have same : reply = reply' := constant did there _ asked _ asked'
    rw [same, clean] at listed
    cases listed

/-- The zones of a node that is trusted, and all that any round goes through, are ones that a
self-test saw list its test point and leave alone a point that no list may have, and kept. -/
theorem watched_zones_vouched {o : Options} {pool : Calls}
    (reached : Pool.Reaches (node [tests o, checks o, resumes o]) (New o) pool) :
    (pool.shared.trusted = true → ∀ zone ∈ pool.shared.zones, ∃ did ∈ pool.traces, zone ∈ kept did ∧ Vouched did zone) ∧
    ∀ round ∈ pool.traces, ∀ zones : List Str, ⟨.zones, zones⟩ ∈ round →
      ∀ zone ∈ zones, ∃ did ∈ pool.traces, zone ∈ kept did ∧ Vouched did zone := by
  have grounded := reached_grounded reached
  have vouched (zone : Str) : Kept pool.traces zone → ∃ did ∈ pool.traces, zone ∈ kept did ∧ Vouched did zone :=
    fun ⟨did, there, kept⟩ => ⟨did, there, kept, grounded.kept did there zone kept⟩
  exact ⟨fun trusted zone member => vouched zone (grounded.zones trusted zone member),
    fun round there zones read zone member => vouched zone (grounded.asked round there zones read zone member)⟩

/-! A node to try the calls on: the resolver answers by name. -/

def serve (answers : Str → Reply) (s : Shared) (did : Trace calls) : (op : Op) → Op.Answer op × Shared
  | .lookup name => (answers name, s)
  | .configured | .zones => (s.zones, s)
  | .trusted => (s.trusted, s)
  | .keep zones => ((), { s with zones, trusted := true })
  | .judge burned reason => ((), { s with burned, reason, round := did })
  | .clear => ((), { s with burned := false, reason := [] })
  | .ipListed _ _ _ => ((), s)
  | .set _ _ => (.ok (), s)

def resolving (answers : Str → Reply) : Player calls (Shared × Trace calls) := fun x op =>
  ((serve answers x.1 x.2 op).1, (serve answers x.1 x.2 op).2, x.2 ++ [⟨op, (serve answers x.1 x.2 op).1⟩])

lemma resolving_admitted (jobs : List (Act Outcome)) (answers : Str → Reply) (x : Shared × Trace calls) (op : Op) :
    (node jobs).solo x ⟨op, (resolving answers x op).1⟩ (resolving answers x op).2 := by
  refine ⟨?_, ?_, rfl⟩
  · cases op <;> constructor
  · cases op <;> first | exact rfl | exact trivial

def lists (names : List Str) (name : Str) : Reply :=
  if name ∈ names then .ok [.v4 (ip4 127 0 0 2)] else .error ⟨lit "no such host", true⟩

def sending : Options := { ip := lit "92.222.87.97", zones := [lit "zen.spamhaus.org"], store := true }

def listedThere : Str → Reply := lists [lit "2.0.0.127.zen.spamhaus.org", lit "97.87.222.92.zen.spamhaus.org"]

def call (answers : Str → Reply) (p : Act Outcome) (s : Shared) : Trace calls × Outcome × Shared × Trace calls :=
  p.play (resolving answers) (s, [])

lemma resolving_recorded (answers : Str → Reply) (p : Act Outcome) (x : Shared × Trace calls) :
    (p.play (resolving answers) x).2.2.2 = x.2 ++ (p.play (resolving answers) x).1 := by
  induction p generalizing x with
  | done a => simp [Prog.play]
  | perform op next ih =>
    simp only [Prog.play, ih]
    simp [resolving]

lemma call_completes {jobs : List (Act Outcome)} {p : Act Outcome} (job : p ∈ jobs) (answers : Str → Reply) (s : Shared)
    (running : List (Proc calls Outcome)) (gone : List (Trace calls × Option Outcome)) :
    Pool.Reaches (node jobs) ⟨s, running, gone⟩ ⟨(call answers p s).2.2.1, running,
      gone ++ [((call answers p s).1, some (call answers p s).2.1)]⟩ := by
  have run := Prog.play_runs id (resolving_admitted jobs answers) p (s, [])
  have recorded : (call answers p s).2.2.2 = (call answers p s).1 := resolving_recorded answers p (s, [])
  refine Pool.Reaches.completes job ?_
  nth_rewrite 2 [← recorded]
  exact run

def vetted : Shared := (call listedThere (tests sending) (New sending).shared).2.2.1

def struck : Calls where
  shared := (call listedThere (checks sending) vetted).2.2.1
  gone := [((call listedThere (tests sending) (New sending).shared).1,
      some (call listedThere (tests sending) (New sending).shared).2.1),
    ((call listedThere (checks sending) vetted).1, some (call listedThere (checks sending) vetted).2.1)]

lemma struck_reached : Pool.Reaches (node [tests sending, checks sending, resumes sending]) (New sending) struck :=
  (call_completes (by simp) listedThere (New sending).shared [] []).trans
    (call_completes (by simp) listedThere vetted [] _)

theorem struck_grounded : struck.shared.burned = true ∧ struck.shared.reason = lit "listed on zen.spamhaus.org" ∧
    ∃ zone, (∃ did ∈ struck.traces, zone ∈ kept did) ∧ ∀ did ∈ struck.traces, zone ∈ kept did → Vouched did zone := by
  have burned : struck.shared.burned = true := by decide +kernel
  obtain ⟨-, zone, -, -, -, -, -, -, kept, vouched⟩ := (burned_grounded struck_reached).1 burned
  exact ⟨burned, by decide +kernel, zone, kept, vouched⟩

theorem struck_zones_vouched : struck.shared.trusted = true ∧ struck.shared.zones = [lit "zen.spamhaus.org"] ∧
    ∃ did ∈ struck.traces, lit "zen.spamhaus.org" ∈ kept did ∧ Vouched did (lit "zen.spamhaus.org") := by
  have trusted : struck.shared.trusted = true := by decide +kernel
  have zones : struck.shared.zones = [lit "zen.spamhaus.org"] := by decide +kernel
  exact ⟨trusted, zones, (watched_zones_vouched struck_reached).1 trusted _ (by simp [zones])⟩

end EmailVerifier.Iphealth
