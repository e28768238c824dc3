import Mathlib.Data.List.Nodup
import EmailVerifier.Prober.Rooms

/-! How many connections are open to one receiving system.

A session takes its lease before it waits for a token and dials, and never renews it.
Where every lease outlives the connection opened under it, the connections open to a
pace key are no more than the largest limit in force for it. Where a token is long in
coming the lease runs out first and its room is given away while the session goes on.
-/

set_option autoImplicit false

namespace EmailVerifier.Prober
open Text Semantics Limiter EmailVerifier.Configuration

def Grip.mayDo (timeout : Nat) (g : Grip) : Op → Prop
  | .acquireSession _ _ => g.lease = none ∧ g.socket = none
  | .release lease => g.lease.map Prod.snd = some lease.id ∧ g.socket = none
  | .dialContext _ _ _ => g.lease ≠ none ∧ g.socket = none
  | .setDeadline conn t => g.socket = some conn.socket ∧ g.timed = false ∧ g.leaving = false ∧ t = timeout
  | .setWriteDeadline conn t => g.socket = some conn.socket ∧ g.leaving = false ∧ t = teardownTimeout
  | _ => True

abbrev Careful (timeout : Nat) : World calls Grip := World.guarded (fun g e => g.mayDo timeout e.op) Grip.note

structure Shows (host : Str) (w : Watch) (g : Grip) : Prop where
  lease : g.lease = w.lease.map fun l => (host, l.id)
  socket : g.socket = w.conn.map Conn.socket
  timed : g.timed = w.timed
  leaving : w.conn ≠ none → g.leaving = true → w.stage = .leaving

variable {g : Grip} {grips : List Grip} {id : Nat} {read : Int}

lemma Shows.next {c : Scope} {w w' : Watch} {e : Event calls} (leasing : c.leasing = true)
    (shows : Shows c.host w g) (step : Step c w e w') : g.mayDo c.timeout e.op ∧ Shows c.host w' (g.note e) := by
  obtain ⟨lease, socket, timed, leaving⟩ := shows
  cases step with
  | @aside _ o _ aside =>
    cases o <;> first | exact ⟨trivial, lease, socket, timed, leaving⟩ | cases aside
  | leased _ unleased alone =>
    exact ⟨⟨by simp [lease, unleased], by simp [socket, alone]⟩, rfl, socket, timed, leaving⟩
  | unleased _ unleased alone =>
    exact ⟨⟨by simp [lease, unleased], by simp [socket, alone]⟩, lease, socket, timed, leaving⟩
  | dialled may =>
    obtain ⟨l, held⟩ := Option.isSome_iff_exists.mp (may.leased leasing)
    exact ⟨⟨by simp [lease, held], by simp [socket, may.alone]⟩, lease, rfl, rfl, nofun⟩
  | undialled may =>
    obtain ⟨l, held⟩ := Option.isSome_iff_exists.mp (may.leased leasing)
    exact ⟨⟨by simp [lease, held], by simp [socket, may.alone]⟩, lease, socket, timed, leaving⟩
  | deadline connected untimed fresh =>
    refine ⟨⟨by simp [socket, connected], timed.trans untimed, ?_, rfl⟩, lease, socket, rfl, leaving⟩
    by_contra gone
    have left := leaving (by simp [connected]) (by simpa using gone)
    rw [fresh] at left
    cases left
  | leaving connected talking =>
    refine ⟨⟨by simp [socket, connected], ?_, rfl⟩, lease, socket, timed, fun _ _ => rfl⟩
    by_contra gone
    exact talking (leaving (by simp [connected]) (by simpa using gone))
  | @write _ sent _ _ a connected sends =>
    -- A session on its way out sends no more questions.
    refine ⟨trivial, ?_⟩
    have talking : g.leaving = true → False := by
      intro gone
      have left := leaving (by simp [connected]) gone
      cases sends with
      | rset standing _ => rcases standing with here | here <;> rw [here] at left <;> cases left
      | ehlo here | startTLS here | mailFrom here => rw [here] at left; cases left
      | rcpt here _ _ | bogus here _ _ => rw [here] at left; cases left
    cases a <;> cases sends <;> exact ⟨lease, socket, timed, fun _ gone => (talking gone).elim⟩
  | @read _ _ _ a connected due =>
    have talking : g.leaving = true → False := by
      intro gone
      have left := leaving (by simp [connected]) gone
      rw [due] at left
      cases left
    cases a <;> exact ⟨trivial, lease, socket, timed, fun _ gone => (talking gone).elim⟩
  | upgraded connected upgrading =>
    refine ⟨trivial, lease, by simp [Grip.note, socket, connected], timed, fun _ gone => ?_⟩
    have left := leaving (by simp [connected]) gone
    rw [upgrading] at left
    cases left
  | spurned connected upgrading =>
    refine ⟨trivial, lease, socket, timed, fun _ gone => ?_⟩
    have left := leaving (by simp [connected]) gone
    rw [upgrading] at left
    cases left
  | bye connected left _ => exact ⟨trivial, lease, socket, timed, leaving⟩
  | close connected => exact ⟨trivial, lease, rfl, timed, nofun⟩
  | closeAgain alone => exact ⟨trivial, lease, by simp [Grip.note, alone], timed, leaving⟩
  | release held alone =>
    exact ⟨⟨by simp [lease, held], by simp [socket, alone]⟩, rfl, socket, timed, leaving⟩
  | enter _ _ | burned _ | resolve _ | paid _ | unpaid _ | leave _ _ _ _ =>
    exact ⟨trivial, lease, socket, timed, leaving⟩

lemma Probe_careful [Unicode] (fuel : Nat) {o : Options} (req : Request) (leasing : o.leases = true) :
    (Probe fuel o req).Follows (Careful o.timeoutOr) (fun _ _ => True) {} := by
  have simulated := (Probe_follows fuel o req).simulated (Q := Careful o.timeoutOr)
    (R := Shows req.mxHost) (n := {}) (fun w g e w' shows step => ?_) ⟨rfl, rfl, rfl, nofun⟩
  · exact simulated.mono fun _ _ _ => trivial
  · obtain ⟨may, next⟩ := Shows.next (c := scopeOf o req) leasing shows step
    exact ⟨g.note e, ⟨may, rfl⟩, next⟩

lemma milliseconds_mono {t t' : Int} (le : t ≤ t') : milliseconds t ≤ milliseconds t' :=
  Int.ediv_le_ediv (by decide) le

lemma milliseconds_lt {t e : Int} (lt : t < e * 1000000) : milliseconds t < e := Int.ediv_lt_of_lt_mul (by decide) lt

structure Sound (ttl : Int) (s : Rooms) : Prop where
  timed : ∀ key, (s.leases key).Timed
  young : ∀ key last, (s.leases key).expireAt = some last → last ≤ milliseconds s.clock + ttl
  few : ∀ key, (s.leases key).members.length ≤ s.peak key

variable {paceKey : Str → Str} {ttl : Int} {timeout : Nat} {s s' : Rooms}

lemma Sound.grant (sound : Sound ttl s) {key : Str} {limit : Nat} (before : read ≤ s.clock)
    (granted : (s.script ttl key limit read id).1.granted = true) : Sound ttl (s.grant ttl key limit read id) := by
  have reading := milliseconds_mono before
  constructor
  · intro other
    simp only [Rooms.grant, Function.update_apply]
    split
    · exact (sound.timed key).lease reading (sound.young key)
    · exact sound.timed other
  · intro other last
    simp only [Rooms.grant, Function.update_apply]
    split
    · intro expires
      rcases LeaseSet.lease_expireAt expires with rfl | old
      · exact Int.le_refl _
      · exact sound.young key last old
    · exact sound.young other last
  · intro other
    simp only [Rooms.grant, Function.update_apply]
    split
    · exact (LeaseSet.lease_granted granted).2.trans (le_max_right _ _)
    · exact sound.few other

lemma Sound.giveBack (sound : Sound ttl s) (id : Nat) : Sound ttl (s.giveBack id) where
  timed key := (sound.timed key).release
  young key last expires := sound.young key last (LeaseSet.alive_expireAt (LeaseSet.only_expireAt expires))
  few key := (LeaseSet.length_release_le _ _ _).trans (sound.few key)

lemma Sound.time (sound : Sound ttl s) {clock : Int} (later : s.clock ≤ clock) : Sound ttl { s with clock } where
  timed := sound.timed
  young key last expires := by
    have := sound.young key last expires
    have := milliseconds_mono later
    dsimp only
    omega
  few := sound.few

lemma Sound.purge (sound : Sound ttl s) (key : Str) (read : Int) : Sound ttl (s.setLeases key
    (((s.leases key).alive (milliseconds s.clock)).zremRangeByScore (milliseconds read))) := by
  constructor
  · intro other
    simp only [Rooms.setLeases, Function.update_apply]
    split
    · exact (sound.timed key).alive.only _
    · exact sound.timed other
  · intro other last
    simp only [Rooms.setLeases, Function.update_apply]
    split
    · exact fun expires => sound.young key last (LeaseSet.alive_expireAt (LeaseSet.only_expireAt expires))
    · exact sound.young other last
  · intro other
    simp only [Rooms.setLeases, Function.update_apply]
    split
    · rename_i same
      rw [same]
      exact ((LeaseSet.length_only_le _ _).trans (LeaseSet.length_alive_le _ _)).trans (sound.few key)
    · exact sound.few other

def Grip.slack (timeout : Nat) (g : Grip) : Int :=
  if g.leaving then 0 else if g.timed then teardownTimeout else timeout + teardownTimeout

/-- What is in hand is backed by the shared state: a lease that has not expired is in its
set, and no open connection can outlast its lease. -/
structure Housed (paceKey : Str → Str) (timeout : Nat) (s : Rooms) (g : Grip) : Prop where
  issued : ∀ host id, g.lease = some (host, id) → id ∈ s.issued
  member : ∀ host id, g.lease = some (host, id) → s.clock < s.expiry id * 1000000 →
    (id, s.expiry id) ∈ (s.leases (paceKey host)).members
  socket : ∀ socket, g.socket = some socket → socket ∈ s.sockets
  within : ∀ socket, g.socket = some socket → s.clock ≤ s.deadline socket
  covered : ∀ socket, g.socket = some socket → ∃ host id, g.lease = some (host, id) ∧
    s.deadline socket + g.slack timeout < s.expiry id * 1000000

section
variable (housed : Housed paceKey timeout s g)
include housed

lemma Housed.spared (clock : s'.clock = s.clock)
    (issued : s.issued ⊆ s'.issued) (sockets : s.sockets ⊆ s'.sockets)
    (expiry : ∀ host id, g.lease = some (host, id) → s'.expiry id = s.expiry id)
    (members : ∀ host id, g.lease = some (host, id) → s.clock < s.expiry id * 1000000 →
      (id, s.expiry id) ∈ (s.leases (paceKey host)).members → (id, s.expiry id) ∈ (s'.leases (paceKey host)).members)
    (deadline : ∀ socket, g.socket = some socket → s'.deadline socket = s.deadline socket) :
    Housed paceKey timeout s' g where
  issued host id held := issued (housed.issued host id held)
  member host id held live := by
    rw [clock, expiry host id held] at live
    rw [expiry host id held]
    exact members host id held live (housed.member host id held live)
  socket socket opened := sockets (housed.socket socket opened)
  within socket opened := by
    rw [clock, deadline socket opened]
    exact housed.within socket opened
  covered socket opened := by
    obtain ⟨host, id, held, covered⟩ := housed.covered socket opened
    exact ⟨host, id, held, by rwa [deadline socket opened, expiry host id held]⟩

lemma Housed.grant (sound : Sound ttl s) {key : Str} {limit : Nat} (before : read ≤ s.clock) (fresh : id ∉ s.issued) :
    Housed paceKey timeout (s.grant ttl key limit read id) g := by
  have other (host : Str) (id' : Nat) (held : g.lease = some (host, id')) : id' ≠ id := by
    rintro rfl
    exact fresh (housed.issued host id' held)
  refine housed.spared rfl (List.subset_cons_self _ _) (List.Subset.refl _) ?_ ?_ fun _ _ => rfl
  · intro host id' held
    exact Function.update_of_ne (other host id' held) _ _
  · intro host id' held live member
    simp only [Rooms.grant, Function.update_apply]
    split
    · rename_i same
      rw [same] at member
      exact LeaseSet.mem_lease (sound.timed key) member (milliseconds_lt live) (milliseconds_mono before)
        (other host id' held)
    · exact member

lemma Housed.giveBack (sound : Sound ttl s)
    (other : ∀ host id', g.lease = some (host, id') → id' ≠ id) : Housed paceKey timeout (s.giveBack id) g := by
  refine housed.spared rfl (List.Subset.refl _) (List.Subset.refl _) (fun _ _ _ => rfl) ?_ fun _ _ => rfl
  intro host id' held live member
  exact LeaseSet.mem_release (sound.timed _) member (milliseconds_lt live) (other host id' held)

lemma Housed.connect {socket : Nat} (fresh : socket ∉ s.sockets) : Housed paceKey timeout (s.connect socket) g := by
  refine housed.spared rfl (List.Subset.refl _) (List.subset_cons_self _ _) (fun _ _ _ => rfl)
    (fun _ _ _ _ member => member) fun socket' opened => Function.update_of_ne ?_ _ _
  rintro rfl
  exact fresh (housed.socket socket' opened)

lemma Housed.setDeadline {socket t : Nat}
    (other : g.socket ≠ some socket) : Housed paceKey timeout (s.setDeadline socket t) g := by
  refine housed.spared rfl (List.Subset.refl _) (List.Subset.refl _) (fun _ _ _ => rfl)
    (fun _ _ _ _ member => member) fun socket' opened => Function.update_of_ne ?_ _ _
  rintro rfl
  exact other opened

/-- A new deadline on the connection in hand, not beyond what its lease was found to cover. -/
lemma Housed.retimed {socket t : Nat} {g' : Grip} (own : g.socket = some socket) (lease : g'.lease = g.lease)
    (still : g'.socket = g.socket) (covered : t + g'.slack timeout ≤ g.slack timeout) :
    Housed paceKey timeout (s.setDeadline socket t) g' := by
  have within := housed.within _ own
  obtain ⟨host, id, held, lasts⟩ := housed.covered _ own
  refine ⟨lease ▸ housed.issued, lease ▸ housed.member, still ▸ housed.socket, fun socket' opened => ?_,
    fun socket' opened => ⟨host, id, lease.trans held, ?_⟩⟩
  · cases own.symm.trans (still.symm.trans opened)
    simp [Rooms.setDeadline]
  · cases own.symm.trans (still.symm.trans opened)
    simp only [Rooms.setDeadline, Function.update_self]
    omega

lemma Housed.purge (sound : Sound ttl s) (key : Str) (before : read ≤ s.clock) : Housed paceKey timeout (s.setLeases key
      (((s.leases key).alive (milliseconds s.clock)).zremRangeByScore (milliseconds read))) g := by
  refine housed.spared rfl (List.Subset.refl _) (List.Subset.refl _) (fun _ _ _ => rfl) ?_ fun _ _ => rfl
  intro host id held live member
  simp only [Rooms.setLeases, Function.update_apply]
  split
  · rename_i same
    rw [same] at member
    have live := milliseconds_lt live
    exact LeaseSet.mem_zremRangeByScore (LeaseSet.mem_alive (sound.timed key) member live)
      (lt_of_le_of_lt (milliseconds_mono before) live)
  · exact member

lemma Housed.time {clock : Int} (later : s.clock ≤ clock)
    (inTime : ∀ socket, g.socket = some socket → clock ≤ s.deadline socket) :
    Housed paceKey timeout { s with clock } g where
  issued := housed.issued
  member host id held live := housed.member host id held (lt_of_le_of_lt later live)
  socket := housed.socket
  within := inTime
  covered := housed.covered

end

section
variable {f : Grip → Option Nat} {before after : List Grip} {g g' x : Grip} {a : Nat}

lemma others_differ (nodup : ((before ++ g :: after).filterMap f).Nodup) (mine : f g = some a)
    (member : x ∈ before ++ after) : f x ≠ some a := by
  intro same
  rw [List.filterMap_append, List.filterMap_cons_some mine, List.nodup_middle, List.nodup_cons] at nodup
  apply nodup.1
  rw [← List.filterMap_append]
  exact List.mem_filterMap.mpr ⟨x, member, same⟩

-- The one replaced has what it had, nothing, or something nobody else has.
lemma nodup_replace (nodup : ((before ++ g :: after).filterMap f).Nodup)
    (new : f g' = f g ∨ f g' = none ∨ ∃ a, f g' = some a ∧ ∀ x ∈ before ++ after, f x ≠ some a) :
    ((before ++ g' :: after).filterMap f).Nodup := by
  have others : ((before ++ after).filterMap f).Nodup := by
    refine nodup.sublist (List.Sublist.filterMap f ?_)
    exact List.Sublist.append_left (List.sublist_cons_self g after) before
  rw [List.filterMap_append] at others nodup ⊢
  rcases new with same | none | ⟨a, mine, fresh⟩
  · rw [List.filterMap_cons] at nodup ⊢
    rwa [same]
  · rwa [List.filterMap_cons_none none]
  · rw [List.filterMap_cons_some mine, List.nodup_middle, List.nodup_cons]
    refine ⟨fun member => ?_, others⟩
    rw [← List.filterMap_append] at member
    obtain ⟨x, there, same⟩ := List.mem_filterMap.mp member
    exact fresh x there same

end

def Grip.leaseID (g : Grip) : Option Nat := g.lease.map Prod.snd

structure Roomy (paceKey : Str → Str) (ttl : Int) (timeout : Nat) (s : Rooms) (grips : List Grip) : Prop where
  sound : Sound ttl s
  housed : ∀ g ∈ grips, Housed paceKey timeout s g
  leases : (grips.filterMap Grip.leaseID).Nodup
  sockets : (grips.filterMap Grip.socket).Nodup

/-- The condition on a step: a connection is opened only under a lease that outlives it. -/
def Outlived (timeout : Nat) (s : Rooms) (did : Trace calls) : Event calls → Rooms → Prop
  | ⟨.dialContext _ _ _, .ok _⟩, _ => ∀ host id, (gripOf did).lease = some (host, id) →
      s.clock + timeout + teardownTimeout < s.expiry id * 1000000
  | _, _ => True

section
variable {before after : List Grip} {did : Trace calls} {e : Event calls}

lemma Roomy.others (roomy : Roomy paceKey ttl timeout s (before ++ gripOf did :: after)) {x : Grip}
    (member : x ∈ before ++ after) : Housed paceKey timeout s x := by
  refine roomy.housed x ?_
  rcases List.mem_append.mp member with old | old <;> simp [old]

-- The parts of the invariant, put together again after a step of one request.
lemma Roomy.assemble {g : Grip} (sound : Sound ttl s') (mine : Housed paceKey timeout s' g)
    (others : ∀ x ∈ before ++ after, Housed paceKey timeout s' x)
    (leases : ((before ++ g :: after).filterMap Grip.leaseID).Nodup)
    (sockets : ((before ++ g :: after).filterMap Grip.socket).Nodup) :
    Roomy paceKey ttl timeout s' (before ++ g :: after) := by
  refine ⟨sound, fun x member => ?_, leases, sockets⟩
  rcases List.mem_append.mp member with old | member
  · exact others x (List.mem_append_left _ old)
  rcases List.mem_cons.mp member with rfl | old
  · exact mine
  · exact others x (List.mem_append_right _ old)

lemma Housed.closed {g : Grip} (housed : Housed paceKey timeout s g) :
    Housed paceKey timeout s { g with socket := none } :=
  ⟨housed.issued, housed.member, nofun, nofun, nofun⟩

lemma Roomy.act (roomy : Roomy paceKey ttl timeout s (before ++ gripOf did :: after))
    (may : (gripOf did).mayDo timeout e.op) (outlived : Outlived timeout s did e s')
    (served : Houses ttl paceKey s e s') : Roomy paceKey ttl timeout s' (before ++ (gripOf did).note e :: after) := by
  obtain ⟨sound, -, leases, sockets⟩ := id roomy
  have mine : Housed paceKey timeout s (gripOf did) := roomy.housed _ (by simp)
  have others {x : Grip} (member : x ∈ before ++ after) := roomy.others member
  cases served with
  | @granted _ host domain lease limit read read_le fresh grant =>
    obtain ⟨unleased, alone⟩ := may
    refine .assemble (sound.grant read_le grant) ?_ (fun x member => (others member).grant sound read_le fresh)
      (nodup_replace leases (.inr (.inr ⟨lease.id, rfl, fun x member same => ?_⟩))) (nodup_replace sockets (.inl rfl))
    · refine ⟨?_, ?_, by simp [Grip.note, alone], by simp [Grip.note, alone], by simp [Grip.note, alone]⟩
      · rintro _ _ ⟨⟩
        exact List.mem_cons_self
      · rintro _ _ ⟨⟩ _
        simp only [Rooms.grant, Function.update_self]
        exact (LeaseSet.lease_granted grant).1
    · obtain ⟨⟨_, _⟩, held, rfl⟩ := Option.map_eq_some_iff.mp same
      exact fresh ((others member).issued _ _ held)
  | refused => exact roomy
  | unheard read_le fresh grant =>
    exact .assemble (sound.grant read_le grant) (mine.grant sound read_le fresh)
      (fun x member => (others member).grant sound read_le fresh) leases sockets
  | @released _ lease =>
    obtain ⟨held, alone⟩ := may
    refine .assemble (sound.giveBack _) ?_ (fun x member => (others member).giveBack sound fun host id' held' => ?_)
      (nodup_replace leases (.inr (.inl rfl))) (nodup_replace sockets (.inl rfl))
    · exact ⟨nofun, nofun, by simp [Grip.note, alone], by simp [Grip.note, alone], by simp [Grip.note, alone]⟩
    · rintro rfl
      exact others_differ leases held member (by simp [Grip.leaseID, held'])
  | unreleased =>
    obtain ⟨held, alone⟩ := may
    exact .assemble sound ⟨nofun, nofun, by simp [Grip.note, alone], by simp [Grip.note, alone],
      by simp [Grip.note, alone]⟩ (fun x => others) (nodup_replace leases (.inr (.inl rfl)))
      (nodup_replace sockets (.inl rfl))
  | @dialled _ network target t socket fresh =>
    obtain ⟨leased, alone⟩ := may
    obtain ⟨⟨host, id⟩, held⟩ := Option.ne_none_iff_exists'.mp leased
    refine .assemble ⟨sound.timed, sound.young, sound.few⟩ ?_ (fun x member => (others member).connect fresh)
      (nodup_replace leases (.inl rfl)) (nodup_replace sockets (.inr (.inr ⟨socket, rfl, fun x member same => ?_⟩)))
    · have there := mine.connect fresh
      refine ⟨there.issued, there.member, ?_, ?_, ?_⟩
      · rintro _ ⟨⟩
        exact List.mem_cons_self
      · rintro _ ⟨⟩
        simp [Rooms.connect]
      · rintro _ ⟨⟩
        refine ⟨host, id, held, ?_⟩
        have lasts := outlived host id held
        simp only [Rooms.connect, Function.update_self, Grip.note, Grip.slack]
        simpa [add_assoc] using lasts
    · exact fresh ((others member).socket _ same)
  | undialled => exact roomy
  | @deadline _ conn t =>
    obtain ⟨mySocket, untimed, talking, rfl⟩ := may
    refine .assemble ⟨sound.timed, sound.young, sound.few⟩ (mine.retimed mySocket rfl rfl ?_)
      (fun x member => (others member).setDeadline (others_differ sockets mySocket member))
      (nodup_replace leases (.inl rfl)) (nodup_replace sockets (.inl rfl))
    simp [Grip.note, Grip.slack, untimed, talking]
  | @writeDeadline _ conn t =>
    obtain ⟨mySocket, talking, rfl⟩ := may
    refine .assemble ⟨sound.timed, sound.young, sound.few⟩ (mine.retimed mySocket rfl rfl ?_)
      (fun x member => (others member).setDeadline (others_differ sockets mySocket member))
      (nodup_replace leases (.inl rfl)) (nodup_replace sockets (.inl rfl))
    simp only [Grip.note, Grip.slack, talking, if_true, Bool.false_eq_true, if_false]
    split <;> omega
  | other elsewhere =>
    obtain ⟨o, a⟩ := e
    cases o with
    | acquireSession | release | dialContext | setDeadline | setWriteDeadline => cases elsewhere
    | close conn =>
      exact .assemble sound mine.closed (fun x => others) (nodup_replace leases (.inl rfl))
        (nodup_replace sockets (.inr (.inl rfl)))
    | _ => exact roomy

end

lemma Roomy.sublist {grips' : List Grip} (roomy : Roomy paceKey ttl timeout s grips)
    (fewer : List.Sublist grips' grips) : Roomy paceKey ttl timeout s grips' where
  sound := roomy.sound
  housed g member := roomy.housed g (fewer.subset member)
  leases := roomy.leases.sublist (fewer.filterMap _)
  sockets := roomy.sockets.sublist (fewer.filterMap _)

lemma Roomy.join (roomy : Roomy paceKey ttl timeout s grips) :
    Roomy paceKey ttl timeout s (grips ++ [({} : Grip)]) where
  sound := roomy.sound
  housed := forall_mem_snoc.mpr ⟨roomy.housed, nofun, nofun, nofun, nofun, nofun⟩
  leases := by
    rw [List.filterMap_append, List.filterMap_cons_none rfl, List.filterMap_nil, List.append_nil]
    exact roomy.leases
  sockets := by
    rw [List.filterMap_append, List.filterMap_cons_none rfl, List.filterMap_nil, List.append_nil]
    exact roomy.sockets

def openTo (paceKey : Str → Str) (key : Str) (grips : List Grip) : List Grip :=
  grips.filter fun g => g.socket.isSome && g.lease.any fun l => paceKey l.1 = key

lemma Roomy.unexpired (roomy : Roomy paceKey ttl timeout s grips) (member : g ∈ grips)
    (opened : g.socket ≠ none) : ∃ host id, g.lease = some (host, id) ∧ s.clock < s.expiry id * 1000000 := by
  obtain ⟨socket, opened⟩ := Option.ne_none_iff_exists'.mp opened
  have housed := roomy.housed g member
  have within := housed.within socket opened
  obtain ⟨host, id, held, covered⟩ := housed.covered socket opened
  have nonneg : 0 ≤ g.slack timeout := by
    unfold Grip.slack
    split
    · exact Int.le_refl 0
    · split <;> omega
  exact ⟨host, id, held, by omega⟩

-- The leases of the open connections are different members of one set.
lemma Roomy.bounded (roomy : Roomy paceKey ttl timeout s grips) (key : Str) :
    (openTo paceKey key grips).length ≤ s.peak key := by
  let mine := openTo paceKey key grips
  have inHand (g : Grip) (member : g ∈ mine) : ∃ host id, g.lease = some (host, id) ∧ paceKey host = key ∧
      s.clock < s.expiry id * 1000000 ∧ g ∈ grips := by
    obtain ⟨there, isOpen⟩ := List.mem_filter.mp member
    rw [Bool.and_eq_true] at isOpen
    obtain ⟨host, id, held, live⟩ := roomy.unexpired there (Option.isSome_iff_ne_none.mp isOpen.1)
    rw [held] at isOpen
    exact ⟨host, id, held, by simpa using isOpen.2, live, there⟩
  have leased : ∀ g ∈ mine, g.leaseID.isSome := by
    intro g member
    obtain ⟨host, id, held, -⟩ := inHand g member
    simp [Grip.leaseID, held]
  have distinct : (mine.filterMap Grip.leaseID).Nodup :=
    roomy.leases.sublist (List.filter_sublist.filterMap _)
  have housed : mine.filterMap Grip.leaseID ⊆ (s.leases key).members.map Prod.fst := by
    intro id member
    obtain ⟨g, there, same⟩ := List.mem_filterMap.mp member
    obtain ⟨host, id', held, rfl, live, running⟩ := inHand g there
    have equal : id' = id := by simpa [Grip.leaseID, held] using same
    subst equal
    exact List.mem_map.mpr ⟨_, (roomy.housed g running).member host id' held live, rfl⟩
  calc mine.length = (mine.filterMap Grip.leaseID).length := by
        rw [List.length_filterMap_eq_countP, List.countP_eq_length.mpr leased]
    _ ≤ ((s.leases key).members.map Prod.fst).length := (distinct.subperm housed).length_le
    _ = (s.leases key).members.length := List.length_map ..
    _ ≤ s.peak key := roomy.sound.few key

section
variable [Unicode] [Format]

/-- The nodes in runs where every connection is opened under a lease that outlives it and
no token is waited for beyond the deadline of an open connection. -/
def promptly (paceKey : Str → Str) (cfg : Config) : Rules calls (Option (Except Str Response)) Rooms :=
  { nodes paceKey cfg with
    may := fun s did e s' => Outlived cfg.probe.timeout.toNat s did e s'
    drift := Passes false }

def fromScratch (clock : Int) : Nodes := { shared := { clock } }

omit [Format] in
lemma Roomy.step {cfg : Config} {pool pool' : Nodes}
    (orderly : pool.Orderly (fun g e => g.mayDo cfg.probe.timeout.toNat e.op) Grip.note (fun _ _ => True) {})
    (roomy : Roomy paceKey (leaseTTL cfg) cfg.probe.timeout.toNat pool.shared pool.grips)
    (step : Pool.Step (promptly paceKey cfg) pool pool') :
    Roomy paceKey (leaseTTL cfg) cfg.probe.timeout.toNat pool'.shared pool'.grips := by
  cases step with
  | spawn _ => simpa [Nodes.grips, gripOf] using roomy.join
  | @act s s' before after gone did o next a served outlived =>
    simp only [Nodes.grips, List.map_append, List.map_cons] at roomy ⊢
    have acted := roomy.act (orderly.allows a) outlived served
    simpa [gripOf] using acted
  | finish | crash _ =>
    simp only [Nodes.grips, List.map_append, List.map_cons] at roomy ⊢
    exact roomy.sublist (List.Sublist.append_left (List.sublist_cons_self _ _) _)
  | drift passes =>
    cases passes with
    | time later inTime =>
      refine ⟨roomy.sound.time later, fun g member => ?_, roomy.leases, roomy.sockets⟩
      obtain ⟨proc, running, rfl⟩ := List.mem_map.mp member
      refine (roomy.housed _ member).time later fun socket opened => ?_
      exact (inTime proc running socket opened).resolve_left fun waits => nomatch waits.1
    | purge before =>
      exact ⟨roomy.sound.purge _ _, fun g member => (roomy.housed g member).purge roomy.sound _ before,
        roomy.leases, roomy.sockets⟩

/-- One session per room: in runs where every lease outlives the connection opened under
it, no more connections are open to a pace key than the largest limit in force for it,
and none of them under a lease that has expired. -/
theorem connections_within_rooms {cfg : Config} (accepted : cfg.Validate = []) {clock : Int} {pool : Nodes}
    (reached : Pool.Reaches (promptly paceKey cfg) (fromScratch clock) pool) :
    (∀ key, (openTo paceKey key pool.grips).length ≤ pool.shared.peak key) ∧
    ∀ g ∈ pool.grips, g.socket ≠ none →
      ∃ host id, g.lease = some (host, id) ∧ milliseconds pool.shared.clock < pool.shared.expiry id := by
  have positive := (accepted_times accepted).1
  have jobs : ∀ p, Requested cfg p → p.Follows (Careful cfg.probe.timeout.toNat) (fun _ _ => True) {} := by
    rintro _ ⟨fuel, o, req, leasing, timeout, rfl⟩
    have same : o.timeoutOr = cfg.probe.timeout.toNat := by
      unfold Options.timeoutOr
      rw [timeout, if_pos positive]
    rw [← same]
    exact Probe_careful fuel req (by simp [Options.leases, leasing])
  have start : Roomy paceKey (leaseTTL cfg) cfg.probe.timeout.toNat (fromScratch clock).shared
      (fromScratch clock).grips :=
    ⟨⟨nofun, nofun, fun _ => Nat.le_refl 0⟩, nofun, List.nodup_nil, List.nodup_nil⟩
  obtain ⟨-, roomy⟩ := reached.keeps
    (fun pool : Nodes => Roomy paceKey (leaseTTL cfg) cfg.probe.timeout.toNat pool.shared pool.grips)
    jobs ⟨nofun, nofun⟩ start fun pool pool' orderly roomy step => roomy.step orderly step
  refine ⟨roomy.bounded, fun g member opened => ?_⟩
  obtain ⟨host, id, held, live⟩ := roomy.unexpired member opened
  exact ⟨host, id, held, milliseconds_lt live⟩

end

def noted (x : Rooms × Trace calls) (o : Op) (answer : o.Answer × Rooms) : o.Answer × Rooms × Trace calls :=
  (answer.1, answer.2, x.2 ++ [⟨o, answer.1⟩])

-- Dials only under a lease that will outlive the connection.
def patient : Player calls (Rooms × Trace calls) := fun x o =>
  let checkIn := hotel (leaseTTL nodeConfig) (fun host => host) x.1
  match o with
  | .dialContext network target timeout =>
    noted x (.dialContext network target timeout) (if (gripOf x.2).lease.all fun l =>
        x.1.clock + nodeConfig.probe.timeout.toNat + teardownTimeout < x.1.expiry l.2 * 1000000 then
      checkIn (.dialContext network target timeout) else (.error broken, x.1))
  | other => noted x other (checkIn other)

lemma patient_prompt (x : Rooms × Trace calls) (o : Op) :
    (promptly (fun host => host) nodeConfig).solo x ⟨o, (patient x o).1⟩ (patient x o).2 := by
  have served := hotel_houses (leaseTTL nodeConfig) (fun host => host) x.1 o
  cases o with
  | dialContext network target timeout =>
    unfold patient
    dsimp only
    split
    · rename_i lasts
      refine ⟨served, ?_, rfl⟩
      change Outlived nodeConfig.probe.timeout.toNat x.1 x.2 ⟨_, (hotel _ _ x.1 _).1⟩ _
      cases (hotel (leaseTTL nodeConfig) (fun host => host) x.1 (.dialContext network target timeout)).1 with
      | error err => trivial
      | ok socket =>
        intro host id held
        rw [held] at lasts
        simpa using lasts
    · exact ⟨.undialled, trivial, rfl⟩
  | _ => exact ⟨served, trivial, rfl⟩

-- A request with its lease, its token and a connection.
def connectedOne : Nodes :=
  let first := aRequest.playFor patient 6 ({ clock := 0 }, [])
  { shared := first.2.2.1, running := [⟨first.2.2.2, first.2.1⟩] }

/-- One request, connected in time. -/
theorem connectedOne_within_rooms : connectedOne.grips.map Grip.socket = [some 0] ∧
    (∀ key, (openTo (fun host => host) key connectedOne.grips).length ≤ connectedOne.shared.peak key) := by
  have run := Prog.playFor_runs patient_prompt 6 aRequest ({ clock := 0 }, [])
  have started : Pool.Reaches (promptly (fun host => host) nodeConfig) (fromScratch 0)
      { shared := { clock := 0 }, running := [⟨[], aRequest⟩] } := .single (.spawn aRequest_requested)
  have reached := started.trans (Pool.Reaches.solo run [] [] [])
  exact ⟨by decide +kernel, (connections_within_rooms nodeConfig_accepted reached).1⟩

/-- The nodes in runs where time passes only while every request waits for a token. -/
def tokenWaits : Rules calls (Option (Except Str Response)) Rooms :=
  { nodes (fun host => host) nodeConfig with
    drift := fun pool s' => Passes true pool s' ∧ ∀ proc ∈ pool.running, awaitsToken proc.rest = true }

-- The first request has its lease and waits for a token until the lease has expired.
def waitingOne : Nodes :=
  let first := underway 3 aRequest { clock := 0 }
  { shared := { first.2.2 with clock := nodeConfig.pacer.sessionLease }, running := [⟨first.1, first.2.1⟩] }

-- Then it dials, and a second request is let in beside it.
def crowded : Nodes :=
  let early := underway 3 aRequest { clock := 0 }
  let first := underway 3 early.2.1 waitingOne.shared
  let second := underway 6 aRequest first.2.2
  { shared := second.2.2, running := [⟨early.1 ++ first.1, first.2.1⟩, ⟨second.1, second.2.1⟩] }

-- One process runs, time passes, it runs on, and a second one starts beside it.
lemma reaches_beside {r : Rules calls (Option (Except Str Response)) Rooms} {s t t' u v : Rooms}
    {p q q' q'' : Act (Option (Except Str Response))} {tr tr' tr'' : Trace calls} (job : r.job p)
    (starts : Runs (fun s e s' => r.world s e s' ∧ ∀ did, r.may s did e s') p s tr q t)
    (passes : r.drift ⟨t, [⟨tr, q⟩], []⟩ t')
    (goesOn : Runs (fun s e s' => r.world s e s' ∧ ∀ did, r.may s did e s') q t' tr' q' u)
    (joins : Runs (fun s e s' => r.world s e s' ∧ ∀ did, r.may s did e s') p u tr'' q'' v) :
    Pool.Reaches r ⟨s, [], []⟩ ⟨v, [⟨tr ++ tr', q'⟩, ⟨tr'', q''⟩], []⟩ := by
  have first : Pool.Reaches r ⟨s, [], []⟩ ⟨t, [⟨tr, q⟩], []⟩ := Pool.Reaches.starts job starts
  have later : Pool.Reaches r ⟨t', [⟨tr, q⟩], []⟩ ⟨u, [⟨tr ++ tr', q'⟩], []⟩ :=
    Pool.Reaches.alone goesOn [] [] [] tr
  exact ((first.tail (.drift passes)).trans later).trans (Pool.Reaches.starts job joins)

lemma tokenWaits_serve (n : Nat) (p : Act (Option (Except Str Response))) (s : Rooms) :
    Runs (fun s e s' => tokenWaits.world s e s' ∧ ∀ did, tokenWaits.may s did e s') p s (underway n p s).1
      (underway n p s).2.1 (underway n p s).2.2 :=
  Prog.playFor_runs (fun s o => ⟨hotel_houses _ _ s o, fun _ => trivial⟩) n p s

lemma waitingOne_passes : tokenWaits.drift ⟨(underway 3 aRequest { clock := 0 }).2.2, waitingOne.running, []⟩
    waitingOne.shared := by
  refine ⟨.time (by decide +kernel) ?_, by decide +kernel⟩
  intro proc running socket opened
  refine .inl ⟨rfl, ?_⟩
  rw [List.mem_singleton.mp running]
  decide +kernel

/-- With the default configuration two connections are open to a host whose limit was
never more than one. -/
theorem token_wait_overfills : nodeConfig.Validate = [] ∧ Pool.Reaches tokenWaits (fromScratch 0) crowded ∧
    (openTo (fun host => host) oneAddress.mxHost crowded.grips).length = 2 ∧
    crowded.shared.peak oneAddress.mxHost = 1 :=
  ⟨nodeConfig_accepted, reaches_beside aRequest_requested (tokenWaits_serve 3 _ _) waitingOne_passes
    (tokenWaits_serve 3 _ _) (tokenWaits_serve 6 _ _), by decide +kernel, by decide +kernel⟩

end EmailVerifier.Prober
