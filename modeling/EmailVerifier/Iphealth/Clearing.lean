import EmailVerifier.Iphealth.Burning

/-! What it takes to clear a burn.

Each round judges afresh by the zones that answered it. A round that gets no answer from
the zones that burned the node clears it as a clean round does.
-/

set_option autoImplicit false

namespace EmailVerifier.Iphealth
open Text Data Semantics

/-- If a step clears the node, it is the operator's, or that of a round in which every zone
that burned the node answered, and did not list the address. -/
def ClearsRightly (o : Options) (pool pool' : Calls) : Prop :=
  pool.shared.burned = true → pool'.shared.burned = false → ∃ did ∈ pool.traces,
    did ++ [⟨.clear, ()⟩] ∈ pool'.traces ∨
    ∃ reason, did ++ [⟨.judge false reason, ()⟩] ∈ pool'.traces ∧
      ∀ zone, Heard pool.shared.round (reverse o.ip) zone (some true) →
        Heard did (reverse o.ip) zone (some false) ∧ ¬ Heard did (reverse o.ip) zone none

/-- A round that judges while the node is burned found the address listed, or no zone that
burned the node failed it. -/
def Informed (o : Options) (s : Shared) (did : Trace calls) (e : Event calls) : Prop :=
  match e.op with
  | .judge _ _ => s.burned = true → (∃ zone, Heard did (reverse o.ip) zone (some true)) ∨
      ∀ zone, Heard s.round (reverse o.ip) zone (some true) → ¬ Heard did (reverse o.ip) zone none
  | _ => True

def informed (o : Options) : Rules calls Outcome Shared :=
  { node [checks o, resumes o] with may := fun s did e s' => Records did e s' ∧ Informed o s did e }

def Settled (op : Op) : Prop := ∀ zones, op ≠ .keep zones

section
variable {o : Options}

lemma persist_settled (burned : Bool) (reason : Str) : (persist o burned reason).Only Settled := by
  unfold persist
  split
  · exact ⟨nofun, fun _ => trivial⟩
  · trivial

lemma askZones_settled (zones : List Str) (found : Table Str Bool × List Str) :
    (askZones o zones found).Only Settled := by
  induction zones generalizing found with
  | nil => trivial
  | cons zone more ih =>
    refine Prog.Only.bind (p := query (reverse o.ip) zone) ⟨nofun, fun _ => trivial⟩ fun out => ?_
    cases out with
    | error err => exact ih _
    | ok found =>
      dsimp only
      split
      · exact ⟨nofun, fun _ => ih _⟩
      · exact ih _

lemma Check_settled : (Check o).Only Settled := by
  unfold Check
  split
  · trivial
  refine ⟨nofun, fun trusted => ?_⟩
  dsimp only [Prog.bind]
  split
  · trivial
  refine ⟨nofun, fun zones => (askZones_settled zones _).bind fun found => ?_⟩
  exact ⟨nofun, fun _ => (persist_settled _ _).bind fun _ => trivial⟩

lemma Resume_settled : (Resume o).Only Settled := ⟨nofun, fun _ => persist_settled _ _⟩

end

/-- The zones are what they were, every round was told so, and what burned the node is
among them. -/
structure Steady (o : Options) (watched : List Str) (s : Shared) (traces : List (Trace calls)) : Prop where
  zones : s.zones = watched
  told : ∀ did ∈ traces, ∀ zones : List Str, ⟨.zones, zones⟩ ∈ did → zones = watched
  burned : s.burned = true → ∀ zone, Heard s.round (reverse o.ip) zone (some true) → zone ∈ watched

def Orders' (o : Options) (did : Trace calls) (e : Event calls) : Prop := Orders o did e ∧ Settled e.op

section
variable {o : Options} {watched : List Str} {s s' : Shared} {traces traces' : List (Trace calls)}

lemma jobs_settled {p : Act Outcome} (job : p ∈ [checks o, resumes o]) :
    p.Follows (World.guarded (Orders' o) snoc) (fun _ _ => True) [] := by
  refine (jobs_follow (List.mem_cons_of_mem _ job)).only ?_
  simp only [List.mem_cons, List.not_mem_nil, or_false] at job
  rcases job with rfl | rfl
  · exact Check_settled.bind fun _ => trivial
  · exact Resume_settled.bind fun _ => trivial

lemma Steady.act {did : Trace calls} {e : Event calls} (before : Steady o watched s traces) (mine : did ∈ traces)
    (orders : Orders' o did e) (served : Serves s e s') (records : Records did e s')
    (others : ∀ other ∈ traces', other = did ++ [e] ∨ other ∈ traces) : Steady o watched s' traces' := by
  refine ⟨?_, fun other member zones seen => ?_, fun burned => ?_⟩
  · cases served with
    | keep => exact (orders.2 _ rfl).elim
    | _ => exact before.zones
  · rcases others other member with rfl | old
    · rcases List.mem_append.mp seen with seen | seen
      · exact before.told did mine zones seen
      · obtain rfl := List.mem_singleton.mp seen
        cases served with
        | zones => exact before.zones
    · exact before.told other old zones seen
  · cases served with
    | @judge _ _ reason round =>
      obtain ⟨⟨-, zones, seen, all⟩, -⟩ := orders
      obtain rfl : round = did := records
      intro zone heard
      rw [← before.told _ mine zones seen]
      exact (all zone).mpr ⟨_, heard⟩
    | clear => cases burned
    | _ => exact before.burned burned

lemma Steady.aside (before : Steady o watched s traces) (others : ∀ did ∈ traces', did = [] ∨ did ∈ traces) :
    Steady o watched s traces' := by
  refine ⟨before.zones, fun did member => ?_, before.burned⟩
  rcases others did member with rfl | old
  · exact nofun
  · exact before.told did old

lemma reached_steady {pool : Calls} (calm : s.burned = false) (reached : Pool.Reaches (informed o) { shared := s } pool) :
    pool.Orderly (Orders' o) snoc (fun _ _ => True) [] ∧ Steady o s.zones pool.shared pool.traces := by
  have first : Steady o s.zones s [] := ⟨rfl, nofun, fun burned => by rw [calm] at burned; cases burned⟩
  refine reached.keeps (fun pool => Steady o s.zones pool.shared pool.traces) (fun _ job => jobs_settled job)
    ⟨nofun, nofun⟩ first fun pool pool' orderly before step => ?_
  rcases step.acts orderly with ⟨did, e, mine, -, orders, served, may, others⟩ | ⟨same, others⟩ | ⟨drifts, -⟩
  · have here : did.foldl snoc [] = did := foldl_snoc [] did
    rw [here] at orders
    exact before.act mine orders served may.1 others
  · rw [same]
    exact before.aside others
  · exact drifts.elim

/-- Where every round is informed, no step clears the node wrongly. -/
theorem cleared_rightly {pool pool' : Calls} (calm : s.burned = false)
    (reached : Pool.Reaches (informed o) { shared := s } pool) (step : Pool.Step (informed o) pool pool') :
    ClearsRightly o pool pool' := by
  obtain ⟨orderly, steady⟩ := reached_steady calm reached
  intro burned cleared
  rcases step.acts orderly with ⟨did, e, mine, now, orders, served, may, -⟩ | ⟨same, -⟩ | ⟨drifts, -⟩
  rotate_left
  · rw [same, burned] at cleared
    cases cleared
  · exact drifts.elim
  have here : did.foldl snoc [] = did := foldl_snoc [] did
  rw [here] at orders
  refine ⟨did, mine, ?_⟩
  generalize pool'.shared = after at *
  have still (same : after.burned = pool.shared.burned) : False := by
    rw [same, burned] at cleared
    cases cleared
  cases served with
  | clear => exact .inl now
  | @judge _ verdict reason round =>
    obtain rfl : verdict = false := cleared
    obtain ⟨⟨listed, zones, seen, all⟩, -⟩ := orders
    have unlisted (zone : Str) : ¬ Heard did (reverse o.ip) zone (some true) := fun heard =>
      nomatch listed.mpr ⟨zone, heard⟩
    have answered := (may.2 burned).resolve_left fun ⟨zone, heard⟩ => unlisted zone heard
    refine .inr ⟨reason, now, fun zone heard => ⟨?_, answered zone heard⟩⟩
    have member : zone ∈ zones := steady.told did mine zones seen ▸ steady.burned burned zone heard
    obtain ⟨said, was⟩ := (all zone).mp member
    rcases said with _ | _ | _
    · exact (answered zone heard was).elim
    · exact was
    · exact (unlisted zone was).elim
  | _ => exact (still rfl).elim

end

/-! A node that was burned, and the round after that. -/

def zen : Str := lit "zen.spamhaus.org"

def firstRound : Trace calls × Outcome × Shared × Trace calls := call listedThere (checks sending) { zones := [zen], trusted := true }

def secondRound (err : LookupErr) : Trace calls :=
  [⟨.trusted, true⟩, ⟨.zones, [zen]⟩, ⟨.lookup (queryName (reverse sending.ip) zen), .error err⟩]

def judging (err : LookupErr) (next : Unit → Act Outcome) : Calls where
  shared := firstRound.2.2.1
  running := [⟨secondRound err, .perform (.judge false []) next⟩]
  gone := [(firstRound.1, some firstRound.2.1)]

def judged (err : LookupErr) (next : Unit → Act Outcome) : Calls where
  shared := { firstRound.2.2.1 with burned := false, reason := [], round := secondRound err }
  running := [⟨secondRound err ++ [⟨.judge false [], ()⟩], next ()⟩]
  gone := [(firstRound.1, some firstRound.2.1)]

def harmless (x : Shared × Trace calls) : Op → Bool
  | .judge _ _ => !x.1.burned
  | _ => true

section
variable {r : Rules calls Outcome Shared}

lemma resolving_harmless (world : r.world = Serves)
    (may : ∀ s did e s', harmless (s, did) e.op = true → Records did e s' → r.may s did e s')
    (answers : Str → Reply) (x : Shared × Trace calls) (op : Op) (fine : harmless x op = true) :
    r.solo x ⟨op, (resolving answers x op).1⟩ (resolving answers x op).2 := by
  obtain ⟨served, records, noted⟩ := resolving_admitted [] answers x op
  exact ⟨world ▸ served, may _ _ _ _ fine records, noted⟩

lemma judging_reached (world : r.world = Serves) (job : r.job (checks sending))
    (may : ∀ s did e s', harmless (s, did) e.op = true → Records did e s' → r.may s did e s') (err : LookupErr) :
    ∃ next, Pool.Reaches r { shared := { zones := [zen], trusted := true } } (judging err next) := by
  have admits := resolving_harmless world may
  have first := Prog.checked_runs (admits listedThere) (checks sending)
    ({ zones := [zen], trusted := true }, []) (by decide +kernel)
  have recorded : firstRound.2.2.2 = firstRound.1 := resolving_recorded listedThere (checks sending) _
  have known : firstRound.2.2.1.zones = [zen] ∧ firstRound.2.2.1.trusted = true := by decide +kernel
  have trusts : Serves firstRound.2.2.1 ⟨.trusted, true⟩ firstRound.2.2.1 := known.2 ▸ Serves.trusted
  have tells : Serves firstRound.2.2.1 ⟨.zones, [zen]⟩ firstRound.2.2.1 := known.1 ▸ Serves.zones
  -- The first round from start to end, then the second up to its judgement.
  have done : Pool.Reaches r { shared := { zones := [zen], trusted := true } }
      { shared := firstRound.2.2.1, gone := [(firstRound.1, some firstRound.2.1)] } := by
    refine Pool.Reaches.completes job ?_
    nth_rewrite 2 [← recorded]
    exact first
  have step (did : Trace calls) (e : Event calls) (served : Serves firstRound.2.2.1 e firstRound.2.2.1)
      (fine : harmless (firstRound.2.2.1, did) e.op = true) (records : Records did e firstRound.2.2.1) :
      r.solo (firstRound.2.2.1, did) e (firstRound.2.2.1, did ++ [e]) := ⟨world ▸ served, may _ _ _ _ fine records, rfl⟩
  have second : ∃ next, Runs r.solo (checks sending) (firstRound.2.2.1, []) (secondRound err)
      (.perform (.judge false []) next) (firstRound.2.2.1, secondRound err) := by
    rcases err with ⟨text, _ | _⟩ <;>
      exact ⟨_, .next (step [] ⟨.trusted, true⟩ trusts rfl trivial) (.next (step _ ⟨.zones, [zen]⟩ tells rfl trivial)
        (.next (step _ ⟨.lookup _, .error _⟩ .looked rfl trivial) .stop))⟩
  obtain ⟨next, second⟩ := second
  exact ⟨next, done.trans (.head (.spawn job) (Pool.Reaches.solo second [] [] _))⟩

lemma judging_step (world : r.world = Serves) (err : LookupErr) (next : Unit → Act Outcome)
    (may : r.may firstRound.2.2.1 (secondRound err) ⟨.judge false [], ()⟩ (judged err next).shared) :
    Pool.Step r (judging err next) (judged err next) := by
  have served : Serves firstRound.2.2.1 ⟨.judge false [], ()⟩ (judged err next).shared := .judge
  exact @Pool.Step.act _ _ _ r _ _ [] [] _ _ _ _ _ (world ▸ served) may

end

-- Of the second round there is one thing to hear.
lemma heard_secondRound {err : LookupErr} {zone : Str} {said : Option Bool}
    (heard : Heard (secondRound err) (reverse sending.ip) zone said) : said = if err.notFound then some false else none := by
  obtain ⟨reply, member, rfl⟩ := heard
  cases List.mem_singleton.mp member
  rfl

def clean : LookupErr := ⟨lit "no such host", true⟩

/-- The zone that burned the node answers again, and no longer lists the address. -/
theorem clean_round_clears : ∃ next, (judging clean next).shared.burned = true ∧
    (judged clean next).shared.burned = false ∧ ClearsRightly sending (judging clean next) (judged clean next) := by
  have harmless_may : ∀ s did e s', harmless (s, did) e.op = true → Records did e s' →
      (informed sending).may s did e s' := by
    intro s did e s' fine records
    refine ⟨records, ?_⟩
    unfold Informed
    split
    · rename_i judges
      rw [judges] at fine
      intro burned
      change (!s.burned) = true at fine
      rw [burned] at fine
      cases fine
    · trivial
  obtain ⟨next, reached⟩ := judging_reached rfl (List.mem_cons_self) harmless_may clean
  have step : Pool.Step (informed sending) (judging clean next) (judged clean next) := by
    refine judging_step rfl clean next ⟨rfl, fun _ => .inr fun zone _ failed => ?_⟩
    cases heard_secondRound failed
  have burned : firstRound.2.2.1.burned = true := by decide +kernel
  exact ⟨next, burned, rfl, cleared_rightly rfl reached step⟩

def failing : LookupErr := ⟨lit "server misbehaving", false⟩

/-- The zone that burned the node cannot be reached, and the node is cleared. -/
theorem failed_round_clears : ∃ pool pool' : Calls,
    Pool.Reaches (node [checks sending, resumes sending]) { shared := { zones := [zen], trusted := true } } pool ∧
    Pool.Step (node [checks sending, resumes sending]) pool pool' ∧ ¬ ClearsRightly sending pool pool' := by
  obtain ⟨next, reached⟩ := judging_reached (r := node [checks sending, resumes sending]) rfl List.mem_cons_self
    (fun _ _ _ _ _ records => records) failing
  refine ⟨judging failing next, judged failing next, reached, judging_step rfl failing next rfl, fun rightly => ?_⟩
  have burned : firstRound.2.2.1.burned = true := by decide +kernel
  have listed : Heard firstRound.2.2.1.round (reverse sending.ip) zen (some true) :=
    ⟨.ok [.v4 (ip4 127 0 0 2)], by decide +kernel, by decide⟩
  -- The first round ended when it had told the store.
  have last : firstRound.1.getLast?.map Event.op =
      some (.set (lit "ip:health:92.222.87.97") (lit "burned:listed on zen.spamhaus.org")) := by decide +kernel
  have other (did : Trace calls) (e : Event calls) (same : did ++ [e] = firstRound.1) :
      e.op = .set (lit "ip:health:92.222.87.97") (lit "burned:listed on zen.spamhaus.org") := by
    rw [← same, List.getLast?_concat] at last
    exact Option.some.inj last
  obtain ⟨did, -, cleared | ⟨reason, judged, answered⟩⟩ := rightly burned rfl
  · rcases List.mem_cons.mp cleared with same | member
    · cases (List.append_inj' same rfl).2
    · cases other did _ (List.mem_singleton.mp member)
  · rcases List.mem_cons.mp judged with same | member
    · obtain rfl := (List.append_inj' same rfl).1
      cases heard_secondRound (answered zen listed).1
    · cases other did _ (List.mem_singleton.mp member)

end EmailVerifier.Iphealth
