import EmailVerifier.Resolver.Vetting
import EmailVerifier.Semantics.Hands

/-! Callers whose contexts end during a lookup.

A lookup answers by the host alone, but it may fail once its context is cancelled or out of
time, be it the caller's deadline or the resolver's own. `Resolve` stores that failure like
any other, for everyone who asks for the host before it expires.
-/

set_option autoImplicit false

namespace EmailVerifier.Resolver
open Text Data Semantics

abbrev Lookup := Str → Except Str (List Addr)

def concluded (host : Str) : Except Str (List Addr) → Answered
  | .error err => ([], some (.lookup host err))
  | .ok [] => ([], some (.noRoutableAddress host))
  | .ok (a :: more) =>
    if (vet host (a :: more)).1 = [] then ([], (vet host (a :: more)).2) else ((vet host (a :: more)).1, none)

def direct [Literals] (host : Str) : Option Answered :=
  if host = [] then some ([], some .hostEmpty)
  else (Literals.parseAddr host).map fun addr =>
    if (Blocked addr).1 then ([], some (.blocked host addr (Blocked addr).2)) else ([addr], none)

lemma concluded_vetted (host : Str) (answer : Except Str (List Addr)) : Vetted (concluded host answer).1 := by
  rcases answer with err | _ | ⟨a, more⟩
  · exact nofun
  · exact nofun
  · simp only [concluded]
    split
    · exact nofun
    · exact vet_vetted host (a :: more)

def StoresLookup (did : Trace calls) (e : Event calls) : Prop :=
  match e.op with
  | .put host addrs err => ∃ network answer, ⟨.lookup network host, answer⟩ ∈ did ∧ (addrs, err) = concluded host answer
  | _ => True

def Came [Literals] (host : Str) (answer : Answered) (did : Trace calls) : Prop :=
  direct host = some answer ∨ direct host = none ∧
    ((∃ e, ⟨.get host, some e⟩ ∈ did ∧ answer = (e.addrs, e.err)) ∨
      ∃ network found, ⟨.lookup network host, found⟩ ∈ did ∧ answer = concluded host found)

abbrev Storing : World calls (Trace calls) := World.guarded StoresLookup fun did e => did ++ [e]

section
variable [Literals] {o : Options} {f : Lookup}

lemma conclude_stores {host network : Str} {did : Trace calls} {found : Except Str (List Addr)} (unknown : direct host = none)
    (looked : ⟨.lookup network host, found⟩ ∈ did) {addrs : List Addr} {err : Option Err}
    (same : (addrs, err) = concluded host found) : (conclude host addrs err).Follows Storing (Came host) did := by
  refine Prog.Follows.heed (fun _ => ⟨network, found, looked, same⟩) fun _ => .inr ⟨unknown, .inr ⟨network, found, ?_, same⟩⟩
  exact List.mem_append_left _ looked

lemma Resolve_stores (o : Options) (host : Str) : (Resolve o host).Follows Storing (Came host) [] := by
  unfold Resolve
  split
  · rename_i empty
    exact .inl (if_pos empty)
  rename_i named
  split
  · rename_i addr parsed
    left
    simp [direct, named, parsed]
  · rename_i unparsed
    have unknown : direct host = none := by simp [direct, named, unparsed]
    apply Prog.Follows.heed (fun _ => trivial)
    intro hit
    cases hit with
    | some e => exact .inr ⟨unknown, .inl ⟨e, List.mem_singleton_self _, rfl⟩⟩
    | none =>
      apply Prog.Follows.heed (fun _ => trivial)
      intro found
      have looked : (⟨.lookup o.net host, found⟩ : Event calls) ∈ [⟨.get host, none⟩] ++ [⟨.lookup o.net host, found⟩] :=
        List.mem_append_right _ (List.mem_singleton_self _)
      rcases found with err | _ | ⟨a, more⟩
      · exact conclude_stores unknown looked rfl
      · exact conclude_stores unknown looked rfl
      · dsimp only
        split
        · rename_i refused
          exact conclude_stores unknown looked (if_pos refused).symm
        · rename_i passed
          exact conclude_stores unknown looked (if_neg passed).symm

end

abbrev ctxCalls : Interface := calls.tagged Bool

/-- The lookup answers by the host; with a context that ends it may fail. -/
inductive Hosts (f : Lookup) : World ctxCalls Shared where
  | cache {s s' : Shared} {alive : Bool} {op : Op} {a : Op.Answer op} : (∀ network host, op ≠ .lookup network host) →
      Serves s ⟨op, a⟩ s' → Hosts f s ⟨(alive, op), a⟩ s'
  | looked {s : Shared} {alive : Bool} {network host : Str} : Hosts f s ⟨(alive, .lookup network host), f host⟩ s
  | cutShort {s : Shared} {network host text : Str} : Hosts f s ⟨(false, .lookup network host), .error text⟩ s

/-- A call with the host it asks for, and whether its context stays alive. -/
def called [Literals] (o : Options) (host : Str) (alive : Bool) : Prog ctxCalls (Str × Bool × Answered) := do
  return (host, alive, ← (Resolve o host).tag alive)

def callers [Literals] (o : Options) (f : Lookup) : Rules ctxCalls (Str × Bool × Answered) Shared where
  world := Hosts f
  job p := ∃ host alive, p = called o host alive
  drift pool s' := ∃ later test, pool.shared.clock ≤ later ∧
    s' = { pool.shared with clock := later, cache := pool.shared.cache.keep test }

abbrev Callers := Pool ctxCalls (Str × Bool × Answered) Shared

def opened (o : Options) (clock : Int) : Callers :=
  { shared := { cache := newCache o.cacheTTL o.negativeTTL o.cacheSize, clock } }

def Spoiled (f : Lookup) (st : Stored) : Prop := (st.addrs, st.err) ≠ concluded st.host (f st.host)

/-- Calls whose contexts stay alive ask for a host only when what was spoiled has expired. -/
def spaced [Literals] (o : Options) (f : Lookup) : Rules ctxCalls (Str × Bool × Answered) Shared :=
  { callers o f with
    may := fun s _ e s' => ∀ host, e.op = (true, .get host) → ∀ st ∈ s.stored, st.host = host → Spoiled f st →
      st.time + (newCache o.cacheTTL o.negativeTTL o.cacheSize).negTTL < s'.clock }

def CutShort (traces : List (Trace ctxCalls)) (host : Str) : Prop :=
  ∃ did ∈ traces, ∃ network text, ⟨(false, .lookup network host), .error text⟩ ∈ did

/-- The cache is sound, only lookups that were cut short spoil it, and calls whose contexts
stay alive see what the host's lookup comes to. -/
structure Fair (o : Options) (f : Lookup) (s : Shared) (traces : List (Trace ctxCalls)) : Prop where
  sound : Sound o s
  stored : ∀ st ∈ s.stored, Spoiled f st → st.err.isSome = true ∧ CutShort traces st.host
  looked : ∀ did ∈ traces, ∀ alive network host found, ⟨(alive, .lookup network host), found⟩ ∈ did →
    found = f host ∨ alive = false ∧ ∃ text, found = .error text
  hit : ∀ did ∈ traces, ∀ host (e : Entry), ⟨(true, .get host), some e⟩ ∈ did → (e.addrs, e.err) = concluded host (f host)

def TagsStores (did : Trace ctxCalls) (e : Event ctxCalls) : Prop :=
  ∃ alive plain e', did = plain.map (Event.tag alive) ∧ e = e'.tag alive ∧ StoresLookup plain e'

def CameTagged [Literals] (result : Str × Bool × Answered) (did : Trace ctxCalls) : Prop :=
  ∃ plain, did = plain.map (Event.tag result.2.1) ∧ Came result.1 result.2.2 plain

lemma CutShort.grown {traces traces' : List (Trace ctxCalls)} {host : Str} (before : CutShort traces host)
    (grown : ∀ did ∈ traces, ∃ more, did ++ more ∈ traces') : CutShort traces' host := by
  obtain ⟨did, member, network, text, cut⟩ := before
  obtain ⟨more, there⟩ := grown did member
  exact ⟨did ++ more, there, network, text, List.mem_append_left _ cut⟩

section
variable [Literals] {o : Options} {f : Lookup} {s s' : Shared} {traces traces' : List (Trace ctxCalls)}

lemma called_stores {p : Prog ctxCalls (Str × Bool × Answered)} (job : ∃ host alive, p = called o host alive) :
    p.Follows (World.guarded TagsStores fun did e => did ++ [e]) CameTagged [] := by
  obtain ⟨host, alive, rfl⟩ := job
  exact ((Resolve_stores o host).tag alive).andThen fun answer did came => came

omit [Literals] in
lemma Fair.aside (before : Fair o f s traces) (sound : Sound o s') (same : s'.stored = s.stored)
    (others : ∀ did ∈ traces', did = [] ∨ did ∈ traces) (grown : ∀ did ∈ traces, ∃ more, did ++ more ∈ traces') :
    Fair o f s' traces' := by
  refine ⟨sound, fun st member spoiled => ?_, fun did member => ?_, fun did member => ?_⟩
  · obtain ⟨failed, cut⟩ := before.stored st (same ▸ member) spoiled
    exact ⟨failed, cut.grown grown⟩
  · rcases others did member with rfl | old
    · exact nofun
    · exact before.looked did old
  · rcases others did member with rfl | old
    · exact nofun
    · exact before.hit did old

omit [Literals] in
lemma Fair.act {did : Trace ctxCalls} {e : Event ctxCalls} (before : Fair o f s traces) (mine : did ∈ traces)
    (stores : TagsStores did e) (served : Hosts f s e s')
    (spacing : ∀ host, e.op = (true, .get host) → ∀ st ∈ s.stored, st.host = host → Spoiled f st →
      st.time + (newCache o.cacheTTL o.negativeTTL o.cacheSize).negTTL < s'.clock)
    (now : did ++ [e] ∈ traces') (others : ∀ other ∈ traces', other = did ++ [e] ∨ other ∈ traces)
    (grown : ∀ did ∈ traces, ∃ more, did ++ more ∈ traces') : Fair o f s' traces' := by
  obtain ⟨alive, plain, ⟨op, a⟩, rfl, rfl, stores⟩ := stores
  have vetted : StoresVetted ⟨op, a⟩ := by
    cases op with
    | put host addrs err =>
      obtain ⟨network, found, -, same⟩ := stores
      have passed := concluded_vetted host found
      rw [← same] at passed
      exact passed
    | _ => trivial
  refine ⟨?_, fun st member spoiled => ?_, fun other member alive' network host found looked => ?_,
    fun other member host entry hit => ?_⟩
  · cases served with
    | cache _ served => exact before.sound.serves vetted served
    | _ => exact before.sound
  · have old (there : st ∈ s.stored) : st.err.isSome = true ∧ CutShort traces' st.host := by
      obtain ⟨failed, cut⟩ := before.stored st there spoiled
      exact ⟨failed, cut.grown grown⟩
    cases served with
    | cache _ served =>
      cases served with
      | put _ _ _ =>
        rcases List.mem_append.mp member with there | new
        · exact old there
        -- What this call stores is spoiled if its own lookup was cut short.
        obtain rfl := List.mem_singleton.mp new
        obtain ⟨network, found, looked, same⟩ := stores
        have tagged := List.mem_map_of_mem (f := Event.tag alive) looked
        rcases before.looked _ mine alive network _ found tagged with rfl | ⟨rfl, text, rfl⟩
        · exact (spoiled same).elim
        · refine ⟨?_, _, now, network, text, List.mem_append_left _ tagged⟩
          rw [(Prod.mk.inj same).2]
          rfl
      | _ => exact old member
    | _ => exact old member
  · rcases others other member with rfl | there
    · rcases List.mem_append.mp looked with looked | new
      · exact before.looked _ mine alive' network host found looked
      · cases List.mem_singleton.mp new
        cases served with
        | cache other _ => exact (other network host rfl).elim
        | looked => exact .inl rfl
        | cutShort => exact .inr ⟨rfl, _, rfl⟩
    · exact before.looked other there alive' network host found looked
  · rcases others other member with rfl | there
    · rcases List.mem_append.mp hit with hit | new
      · exact before.hit _ mine host entry hit
      · cases List.mem_singleton.mp new
        cases served with
        | cache _ served =>
          generalize answered : (some entry : Option Entry) = answer at served
          cases served with
          | @got _ _ time later =>
            obtain ⟨st, there, same, addrs, err, -, fresh, -⟩ := before.sound.hit answered.symm
            by_contra wrong
            have spoiled : Spoiled f st := by
              unfold Spoiled
              rw [addrs, err, same]
              exact wrong
            -- It is an error, so it was held briefly and has expired.
            have expired := spacing host rfl st there same spoiled
            have held : s.cache.holds st.err = (newCache o.cacheTTL o.negativeTTL o.cacheSize).negTTL := by
              rw [before.sound.alike.holds]
              exact if_pos (before.stored st there spoiled).1
            rw [held] at fresh
            exact absurd fresh (not_le.mpr expired)
    · exact before.hit other there host entry hit

lemma reached_fair {clock : Int} {pool : Callers} (reached : Pool.Reaches (spaced o f) (opened o clock) pool) :
    pool.Orderly TagsStores (fun did e => did ++ [e]) CameTagged [] ∧ Fair o f pool.shared pool.traces := by
  have first : Fair o f (opened o clock).shared [] := ⟨(started_sound o clock).shared, nofun, nofun, nofun⟩
  refine reached.keeps (fun pool => Fair o f pool.shared pool.traces) (fun _ job => called_stores job) ⟨nofun, nofun⟩
    first fun pool pool' orderly before step => ?_
  have grown : ∀ did ∈ pool.traces, ∃ more, did ++ more ∈ pool'.traces := fun did member => step.traces member
  rcases step.acts orderly with ⟨did, e, mine, now, stores, served, spacing, others⟩ | ⟨same, others⟩ | ⟨drifts, others⟩
  · rw [foldl_snoc, List.nil_append] at stores
    exact before.act mine stores served spacing now others grown
  · rw [same]
    exact before.aside before.sound rfl others grown
  · obtain ⟨later, test, time, same⟩ := drifts
    rw [same]
    refine before.aside ?_ rfl others grown
    exact before.sound.fewer ⟨rfl, rfl, rfl⟩ (pool.shared.cache.keep_size_le test)
      (fun _ _ found => Table.lookup_of_keep found) time

lemma live_answer {clock : Int} {pool : Callers} (reached : Pool.Reaches (spaced o f) (opened o clock) pool)
    {did : Trace ctxCalls} {host : Str} {answer : Answered} (returned : (did, some (host, true, answer)) ∈ pool.gone) :
    answer = (direct host).getD (concluded host (f host)) := by
  obtain ⟨orderly, fair⟩ := reached_fair reached
  have there : did ∈ pool.traces := List.mem_append_right _ (List.mem_map_of_mem (f := Prod.fst) returned)
  obtain ⟨plain, tagged, came⟩ := orderly.returned did _ returned
  rw [foldl_snoc, List.nil_append] at tagged
  have mine {e : Event calls} (member : e ∈ plain) : e.tag true ∈ did :=
    tagged ▸ List.mem_map_of_mem (f := Event.tag true) member
  rcases came with known | ⟨unknown, ⟨e, hit, same⟩ | ⟨network, found, looked, same⟩⟩
  · rw [known]
    rfl
  · rw [unknown]
    exact same.trans (fair.hit did there host e (mine hit))
  · rw [unknown]
    rcases fair.looked did there true network host found (mine looked) with rfl | ⟨dead, -⟩
    · exact same
    · cases dead

/-- Whoever else asked for the host, and however their contexts ended: calls whose contexts
stay alive get the same from it, in any two runs in which they ask once what was spoiled
has expired. What is spoiled is what a context cut short. -/
theorem live_answers_agree {clock clock' : Int} {pool pool' : Callers}
    (reached : Pool.Reaches (spaced o f) (opened o clock) pool)
    (reached' : Pool.Reaches (spaced o f) (opened o clock') pool') :
    (∀ host did did' answer answer', (did, some (host, true, answer)) ∈ pool.gone →
      (did', some (host, true, answer')) ∈ pool'.gone → answer = answer') ∧
    ∀ st ∈ pool.shared.stored, Spoiled f st → CutShort pool.traces st.host := by
  refine ⟨fun host did did' answer answer' returned returned' => ?_, fun st stored spoiled => ?_⟩
  · exact (live_answer reached returned).trans (live_answer reached' returned').symm
  · exact ((reached_fair reached).2.stored st stored spoiled).2

end

/-! Calls to try: the clock stands still, and a context that ends cuts the lookup short. -/

def hosting (f : Lookup) : Player ctxCalls Shared := fun s o =>
  match o with
  | (_, .get host) => ((s.cache.get s.clock host).1, { s with cache := (s.cache.get s.clock host).2 })
  | (alive, .lookup _ host) => (if alive then f host else .error (lit "context canceled"), s)
  | (_, .put host addrs err) => ((), { s with
      cache := s.cache.put s.clock s.clock [] host addrs err
      stored := s.stored ++ [⟨host, addrs, err, s.clock⟩] })

def roomy (fair : Shared → Bool) (s : Shared) : ctxCalls.Op → Bool
  | (alive, .get _) => !alive || fair s
  | (_, .put _ _ _) => (s.cache.sweep s.clock).size < s.cache.max
  | _ => true

lemma hosting_admitted (f : Lookup) (s : Shared) (o : ctxCalls.Op) (room : roomy (fun _ => true) s o = true) :
    Hosts f s ⟨o, (hosting f s o).1⟩ (hosting f s o).2 := by
  obtain ⟨alive, op⟩ := o
  cases op with
  | get host => exact .cache nofun (.got (le_refl _))
  | lookup network host =>
    cases alive with
    | true => exact .looked
    | false => exact .cutShort
  | put host addrs err => exact .cache nofun (.put (le_refl _) (le_refl _) (.inl (of_decide_eq_true room)))

instance : DecidableEq (Str × Bool × Answered) := inferInstance

def mail : Lookup := fun _ => .ok [.v4 (ip4 9 9 9 9)]

def asks (alive : Bool) (s : Shared) : Trace ctxCalls × (Str × Bool × Answered) × Shared :=
  (called {} (lit "mx.test") alive).play (hosting mail) s

def twice (alive : Bool) : Callers where
  shared := (asks true (asks alive (opened {} 0).shared).2.2).2.2
  gone := [((asks alive (opened {} 0).shared).1, some (asks alive (opened {} 0).shared).2.1),
    ((asks true (asks alive (opened {} 0).shared).2.2).1, some (asks true (asks alive (opened {} 0).shared).2.2).2.1)]

lemma twice_reached {r : Rules ctxCalls (Str × Bool × Answered) Shared} {fair : Shared → Bool} (alive : Bool)
    (job : ∀ alive, r.job (called {} (lit "mx.test") alive))
    (admits : ∀ s o, roomy fair s o = true → r.world s ⟨o, (hosting mail s o).1⟩ (hosting mail s o).2 ∧
      ∀ did, r.may s did ⟨o, (hosting mail s o).1⟩ (hosting mail s o).2)
    (first : (called {} (lit "mx.test") alive).checked (hosting mail) (roomy fair) (opened {} 0).shared = true)
    (second : (called {} (lit "mx.test") true).checked (hosting mail) (roomy fair)
      (asks alive (opened {} 0).shared).2.2 = true) : Pool.Reaches r (opened {} 0) (twice alive) :=
  (Pool.Reaches.returns (job alive) (Prog.checked_runs admits _ _ first)).trans
    (Pool.Reaches.returns (job true) (Prog.checked_runs admits _ _ second))

/-- One call's lookup is cut short, and the next call is told so. -/
theorem context_answers_others :
    Pool.Reaches (callers {} mail) (opened {} 0) (twice true) ∧ Pool.Reaches (callers {} mail) (opened {} 0) (twice false) ∧
    (twice true).gone.map Prod.snd = [some (lit "mx.test", true, [.v4 (ip4 9 9 9 9)], none),
      some (lit "mx.test", true, [.v4 (ip4 9 9 9 9)], none)] ∧
    (twice false).gone.map Prod.snd = [some (lit "mx.test", false, [], some (.lookup (lit "mx.test") (lit "context canceled"))),
      some (lit "mx.test", true, [], some (.lookup (lit "mx.test") (lit "context canceled")))] := by
  have admits (s : Shared) (o : ctxCalls.Op) (room : roomy (fun _ => true) s o = true) :
      (callers {} mail).world s ⟨o, (hosting mail s o).1⟩ (hosting mail s o).2 ∧
        ∀ did, (callers {} mail).may s did ⟨o, (hosting mail s o).1⟩ (hosting mail s o).2 :=
    ⟨hosting_admitted mail s o room, fun _ => trivial⟩
  have job (alive : Bool) : (callers {} mail).job (called {} (lit "mx.test") alive) := ⟨_, alive, rfl⟩
  refine ⟨twice_reached true job admits ?_ ?_, twice_reached false job admits ?_ ?_, ?_, ?_⟩ <;> decide +kernel

def expired (s : Shared) : Bool := s.stored.all fun st =>
  (st.addrs, st.err) = concluded st.host (mail st.host) || st.time + (newCache 0 0 0).negTTL < s.clock

def outlasted : Shared :=
  let s := (asks false (opened {} 0).shared).2.2
  { s with clock := (newCache 0 0 0).negTTL + 1, cache := s.cache.keep fun _ _ => true }

-- The second call waits until the failure of the first has expired.
def patient : Callers where
  shared := (asks true outlasted).2.2
  gone := [((asks false (opened {} 0).shared).1, some (asks false (opened {} 0).shared).2.1),
    ((asks true outlasted).1, some (asks true outlasted).2.1)]

/-- A call whose lookup is cut short, and one after that has expired: it is told what calls are
told that no other came before. -/
theorem patient_agrees : patient.gone.map Prod.snd =
      [some (lit "mx.test", false, [], some (.lookup (lit "mx.test") (lit "context canceled"))),
        some (lit "mx.test", true, [.v4 (ip4 9 9 9 9)], none)] ∧
    (∀ host did did' answer answer', (did, some (host, true, answer)) ∈ patient.gone →
      (did', some (host, true, answer')) ∈ (twice true).gone → answer = answer') ∧
    ∀ st ∈ patient.shared.stored, Spoiled mail st → CutShort patient.traces st.host := by
  have admits (s : Shared) (o : ctxCalls.Op) (room : roomy expired s o = true) :
      (spaced {} mail).world s ⟨o, (hosting mail s o).1⟩ (hosting mail s o).2 ∧
        ∀ did, (spaced {} mail).may s did ⟨o, (hosting mail s o).1⟩ (hosting mail s o).2 := by
    refine ⟨hosting_admitted mail s o ?_, fun did host same st member _ spoiled => ?_⟩
    · obtain ⟨alive, op⟩ := o
      cases op with
      | put host addrs err => exact room
      | _ => simp [roomy]
    · obtain rfl : o = (true, .get host) := same
      have either := List.all_eq_true.mp room st member
      rw [Bool.or_eq_true, decide_eq_true_eq, decide_eq_true_eq] at either
      exact either.resolve_left spoiled
  have job (alive : Bool) : (spaced {} mail).job (called {} (lit "mx.test") alive) := ⟨_, alive, rfl⟩
  have cut : Pool.Reaches (spaced {} mail) (opened {} 0) _ :=
    Pool.Reaches.returns (job false) (Prog.checked_runs admits _ _ (by decide +kernel))
  have reached : Pool.Reaches (spaced {} mail) (opened {} 0) patient :=
    (cut.tail (.drift ⟨_, _, by decide +kernel, rfl⟩)).trans
      (Pool.Reaches.returns (job true) (Prog.checked_runs admits _ _ (by decide +kernel)))
  have live := twice_reached true job admits (by decide +kernel) (by decide +kernel)
  exact ⟨by decide +kernel, live_answers_agree reached live⟩

end EmailVerifier.Resolver
