import EmailVerifier.Prober.ProbeConduct
import EmailVerifier.Prober.Surroundings

/-! What a session has in hand when it dials, and how leases are given back.

Leases held and sockets open are read off a trace from its grants, releases, dials
and closes alone.
-/

set_option autoImplicit false

namespace EmailVerifier.Prober
open Text Data Semantics

def sinceEnter (tr : Trace calls) : Trace calls :=
  tr.foldl (fun session e => match e.op with
    | .enter _ _ => []
    | _ => session ++ [e]) []

def heldAfter (held : List Lease) : Event calls → List Lease
  | ⟨.acquireSession _ _, .ok lease⟩ => held ++ [lease]
  | ⟨.release lease, _⟩ => held.erase lease
  | _ => held

def leasesHeld (tr : Trace calls) : List Lease := tr.foldl heldAfter []

def openAfter (sockets : List Nat) : Event calls → List Nat
  | ⟨.dialContext _ _ _, .ok socket⟩ => sockets ++ [socket]
  | ⟨.close conn, _⟩ => sockets.erase conn.socket
  | _ => sockets

def openSockets (tr : Trace calls) : List Nat := tr.foldl openAfter []

/-- What a session must have in hand to open a connection to `target`. -/
structure Gated (o : Options) (req : Request) (before : Trace calls) (target : Str) : Prop where
  unburned : o.health = true → ∃ why, ⟨.burned, (false, why)⟩ ∈ sinceEnter before
  vetted : ∃ ips, ⟨.resolve req.mxHost, .ok ips⟩ ∈ sinceEnter before ∧
    ∃ a ∈ ips, target = joinHostPort a.string o.portOr
  leased : o.leases = true → ∃ lease domain,
    ⟨.acquireSession req.mxHost domain, .ok lease⟩ ∈ sinceEnter before ∧ leasesHeld before = [lease]
  paid : o.paced = true → ∃ domain, ⟨.acquire req.mxHost domain, .ok ()⟩ ∈ sinceEnter before
  alone : openSockets before = []

structure Shown (c : Scope) (tr : Trace calls) (w : Watch) : Prop where
  held : leasesHeld tr = w.lease.toList
  opened : openSockets tr = (w.conn.map Conn.socket).toList
  cleared : w.inside = true → w.cleared = true → ∃ why, ⟨.burned, (false, why)⟩ ∈ sinceEnter tr
  vetted : w.inside = true → ∀ ips, w.ips = some ips → ⟨.resolve c.host, .ok ips⟩ ∈ sinceEnter tr
  leased : w.inside = true → ∀ lease, w.lease = some lease →
    ∃ domain, ⟨.acquireSession c.host domain, .ok lease⟩ ∈ sinceEnter tr
  paid : w.inside = true → w.paid = true → ∃ domain, ⟨.acquire c.host domain, .ok ()⟩ ∈ sinceEnter tr

variable {c : Scope} {w w' : Watch} {e : Event calls} {tr : Trace calls}

lemma leasesHeld_snoc (tr : Trace calls) (e : Event calls) : leasesHeld (tr ++ [e]) = heldAfter (leasesHeld tr) e := by
  simp [leasesHeld]

lemma openSockets_snoc (tr : Trace calls) (e : Event calls) : openSockets (tr ++ [e]) = openAfter (openSockets tr) e := by
  simp [openSockets]

def Within (e : Event calls) : Prop := ∀ groups grouped, e.op ≠ .enter groups grouped

lemma sinceEnter_snoc (tr : Trace calls) (inside : Within e) : sinceEnter (tr ++ [e]) = sinceEnter tr ++ [e] := by
  unfold sinceEnter
  rw [List.foldl_append, List.foldl_cons, List.foldl_nil]
  split
  · rename_i groups grouped same
    exact absurd same (inside groups grouped)
  · rfl

lemma mem_sinceEnter_snoc {e' : Event calls} (member : e' ∈ sinceEnter tr)
    (inside : Within e) : e' ∈ sinceEnter (tr ++ [e]) := by
  rw [sinceEnter_snoc tr inside]
  exact List.mem_append_left _ member

lemma last_mem_sinceEnter (tr : Trace calls) (inside : Within e) : e ∈ sinceEnter (tr ++ [e]) := by
  rw [sinceEnter_snoc tr inside]
  exact List.mem_append_right _ (List.mem_singleton.mpr rfl)

lemma Step.held (step : Step c w e w') : w'.lease.toList = heldAfter w.lease.toList e := by
  cases step with
  | @aside _ o _ aside => cases o <;> first | rfl | cases aside
  | leased _ unleased _ => simp [heldAfter, unleased]
  | @write _ _ _ _ a _ sends => cases a <;> cases sends <;> rfl
  | @read _ _ _ a _ _ => cases a <;> rfl
  | release held _ => simp [heldAfter, held]
  | _ => rfl

lemma Step.opened (step : Step c w e w') :
    (w'.conn.map Conn.socket).toList = openAfter (w.conn.map Conn.socket).toList e := by
  cases step with
  | @aside _ o _ aside => cases o <;> first | rfl | cases aside
  | dialled may => simp [openAfter, may.alone]
  | @write _ _ _ _ a _ sends => cases a <;> cases sends <;> rfl
  | @read _ _ _ a _ _ => cases a <;> rfl
  | upgraded connected _ => simp [openAfter, connected]
  | close connected => simp [openAfter, connected]
  | closeAgain alone => simp [openAfter, alone]
  | _ => rfl

lemma Aside.within {o : Op} {a : o.Answer} (aside : Aside o) : Within ⟨o, a⟩ := by
  rintro groups grouped rfl
  exact aside

lemma Step.inHand (step : Step c w e w') :
    (Within e ∧ (w'.inside = true → w.inside = true) ∧
      (w'.cleared = true → w.cleared = true ∨ ∃ why, e = ⟨.burned, (false, why)⟩) ∧
      (∀ ips, w'.ips = some ips → w.ips = some ips ∨ e = ⟨.resolve c.host, .ok ips⟩) ∧
      (∀ lease, w'.lease = some lease → w.lease = some lease ∨
        ∃ domain, e = ⟨.acquireSession c.host domain, .ok lease⟩) ∧
      (w'.paid = true → w.paid = true ∨ ∃ domain, e = ⟨.acquire c.host domain, .ok ()⟩)) ∨
    (w'.cleared = false ∧ w'.ips = none ∧ w'.lease = none ∧ w'.paid = false) := by
  cases step with
  | enter idle _ => exact .inr ⟨rfl, rfl, idle.unleased, rfl⟩
  | aside aside => exact .inl ⟨aside.within, id, .inl, fun _ => .inl, fun _ => .inl, .inl⟩
  | @burned _ yes why inside =>
    refine .inl ⟨nofun, id, fun clear => .inr ⟨why, ?_⟩, fun _ => .inl, fun _ => .inl, .inl⟩
    cases yes
    · rfl
    · cases clear
  | @resolve _ a inside =>
    refine .inl ⟨nofun, id, .inl, fun ips found => .inr ?_, fun _ => .inl, .inl⟩
    cases a with
    | error err => cases found
    | ok found' => cases found; rfl
  | @leased _ domain lease _ _ _ =>
    refine .inl ⟨nofun, id, .inl, fun _ => .inl, fun lease' found => .inr ⟨domain, ?_⟩, .inl⟩
    cases found
    rfl
  | @paid _ domain _ => exact .inl ⟨nofun, id, .inl, fun _ => .inl, fun _ => .inl, fun _ => .inr ⟨domain, rfl⟩⟩
  | @write _ _ _ _ a _ sends =>
    refine .inl ⟨nofun, ?_, ?_, ?_, ?_, ?_⟩ <;> cases a <;> cases sends <;>
      first | exact .inl | exact fun _ => .inl | exact id | exact nofun
  | @read _ _ _ a _ _ =>
    refine .inl ⟨nofun, ?_, ?_, ?_, ?_, ?_⟩ <;> cases a <;>
      first | exact .inl | exact fun _ => .inl | exact id
  | release _ _ => exact .inl ⟨nofun, id, .inl, fun _ => .inl, nofun, .inl⟩
  | leave _ _ _ _ => exact .inl ⟨nofun, nofun, .inl, fun _ => .inl, fun _ => .inl, .inl⟩
  | _ => exact .inl ⟨nofun, id, .inl, fun _ => .inl, fun _ => .inl, .inl⟩

lemma Shown.next (shown : Shown c tr w) (step : Step c w e w') : Shown c (tr ++ [e]) w' := by
  have held : leasesHeld (tr ++ [e]) = w'.lease.toList := by rw [leasesHeld_snoc, shown.held, step.held]
  have opened : openSockets (tr ++ [e]) = (w'.conn.map Conn.socket).toList := by
    rw [openSockets_snoc, shown.opened, step.opened]
  rcases step.inHand with ⟨within, inside, cleared, vetted, leased, paid⟩ | ⟨uncleared, unvetted, unleased, unpaid⟩
  · have kept {e' : Event calls} (member : e' ∈ sinceEnter tr) := mem_sinceEnter_snoc member within
    have here := last_mem_sinceEnter tr within
    refine ⟨held, opened, fun now clear => ?_, fun now ips found => ?_, fun now lease found => ?_, fun now have_ => ?_⟩
    · rcases cleared clear with old | ⟨why, rfl⟩
      · obtain ⟨why, member⟩ := shown.cleared (inside now) old
        exact ⟨why, kept member⟩
      · exact ⟨why, here⟩
    · rcases vetted ips found with old | rfl
      · exact kept (shown.vetted (inside now) ips old)
      · exact here
    · rcases leased lease found with old | ⟨domain, rfl⟩
      · obtain ⟨domain, member⟩ := shown.leased (inside now) lease old
        exact ⟨domain, kept member⟩
      · exact ⟨domain, here⟩
    · rcases paid have_ with old | ⟨domain, rfl⟩
      · obtain ⟨domain, member⟩ := shown.paid (inside now) old
        exact ⟨domain, kept member⟩
      · exact ⟨domain, here⟩
  · exact ⟨held, opened, fun _ clear => by simp [uncleared] at clear, fun _ ips found => by simp [unvetted] at found,
      fun _ lease found => by simp [unleased] at found, fun _ have_ => by simp [unpaid] at have_⟩

lemma shown_of_path (path : Path (Step c) {} tr w) : Shown c tr w :=
  path.traced (fun seen w => Shown c seen w) ⟨rfl, rfl, nofun, nofun, nofun, nofun⟩
    fun _ _ _ _ shown step => shown.next step

/-- Every connection is opened to a vetted address with everything in hand; one lease
at most is held, and each is given back once, when the session's connection is closed,
before the session is over. -/
theorem Probe_disciplined [Unicode] {S : Type} {W : World calls S} {s t : S} {fuel : Nat} {o : Options}
    {req : Request} {tr : Trace calls} {q : Act (Option (Except Str Response))}
    (run : Runs W (Probe fuel o req) s tr q t) :
    (∀ before after network target timeout socket,
      tr = before ++ ⟨.dialContext network target timeout, .ok socket⟩ :: after →
        Gated o req before target) ∧
    (∀ before after, tr = before ++ after → (leasesHeld before).length ≤ 1) ∧
    (∀ before after lease, tr = before ++ ⟨.release lease, ()⟩ :: after →
      leasesHeld before = [lease] ∧ openSockets before = []) ∧
    (∀ before after rest, tr = before ++ ⟨.leave rest, ()⟩ :: after →
      leasesHeld before = [] ∧ openSockets before = []) ∧
    (∀ found, q = .done found → leasesHeld tr = [] ∧ openSockets tr = []) := by
  obtain ⟨w, path, finished⟩ := (Probe_follows fuel o req).path run
  refine ⟨?_, ?_, ?_, ?_, ?_⟩
  · rintro before after network target timeout socket rfl
    obtain ⟨mid, mid', earlier, step, -⟩ := path.split
    have shown := shown_of_path earlier
    cases step with
    | aside aside => cases aside
    | dialled may =>
      refine ⟨fun health => shown.cleared may.inside (may.cleared health), ?_, fun leasing => ?_,
        fun paced => shown.paid may.inside (may.paid paced), by rw [shown.opened, may.alone]; rfl⟩
      · obtain ⟨ips, a, found, member, same⟩ := may.vetted
        exact ⟨ips, shown.vetted may.inside ips found, a, member, same⟩
      · obtain ⟨lease, found⟩ := Option.isSome_iff_exists.mp (may.leased leasing)
        obtain ⟨domain, granted⟩ := shown.leased may.inside lease found
        exact ⟨lease, domain, granted, by rw [shown.held, found]; rfl⟩
  · rintro before after rfl
    obtain ⟨mid, earlier⟩ := path.start
    rw [(shown_of_path earlier).held]
    cases mid.lease <;> simp
  · rintro before after lease rfl
    obtain ⟨mid, mid', earlier, step, -⟩ := path.split
    have shown := shown_of_path earlier
    cases step with
    | aside aside => cases aside
    | release held alone => exact ⟨by rw [shown.held, held]; rfl, by rw [shown.opened, alone]; rfl⟩
  · rintro before after rest rfl
    obtain ⟨mid, mid', earlier, step, -⟩ := path.split
    have shown := shown_of_path earlier
    cases step with
    | aside aside => cases aside
    | leave _ unleased alone _ => exact ⟨by rw [shown.held, unleased]; rfl, by rw [shown.opened, alone]; rfl⟩
  · rintro found rfl
    have idle : w.Idle := Finished.idle finished
    have shown := shown_of_path path
    exact ⟨by rw [shown.held, idle.unleased]; rfl, by rw [shown.opened, idle.alone]; rfl⟩

def gatedOptions : Options where
  health := true
  pacer := .leasing

/-- A request that takes a lease, dials, and gives the lease back. -/
theorem granted_lease_given_back : ∃ before after lease found,
    Runs anyone (Probe 1 gatedOptions oneAddress) () (before ++ ⟨.release lease, ()⟩ :: after) (.done found) () ∧
    leasesHeld before = [lease] ∧ openSockets before = [] ∧
    leasesHeld (before ++ ⟨.release lease, ()⟩ :: after) = [] := by
  let isRelease : Event calls → Bool
    | ⟨.release _, _⟩ => true
    | _ => false
  have run := play_anyone granting_readable (Probe 1 gatedOptions oneAddress) false
  have released : ((Probe 1 gatedOptions oneAddress).play granting false).1.any isRelease = true := by
    decide +kernel
  obtain ⟨e, member, isRelease⟩ := List.any_eq_true.mp released
  obtain ⟨before, after, shape⟩ := List.append_of_mem member
  match e, isRelease with
  | ⟨.release lease, ()⟩, _ =>
    rw [shape] at run
    obtain ⟨-, -, gives, -, ends⟩ := Probe_disciplined run
    exact ⟨before, after, lease, _, run, (gives before after lease rfl).1, (gives before after lease rfl).2,
      (ends _ rfl).1⟩

end EmailVerifier.Prober
