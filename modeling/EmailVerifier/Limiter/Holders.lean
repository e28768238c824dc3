import Mathlib.Data.List.Nodup
import Mathlib.Data.List.Perm.Subperm
import Mathlib.Logic.Relation
import EmailVerifier.Limiter.Lease

/-! Who holds the leases of one pace key.

Any number of nodes run the two scripts against one set, in any order, on one clock that
never goes back and that the key expires by. The desk keeps, beside the set, every lease
that was granted and not given back. The set counts all of them as long as no grant makes
the key expire before a lease that is still out.
-/

set_option autoImplicit false

namespace EmailVerifier.Limiter

def LeaseSet.counted (set : LeaseSet) (now : Int) : List (Nat × Int) := ((set.alive now).zremRangeByScore now).members

structure Desk where
  clock : Int := 0
  set : LeaseSet := {}
  /-- The leases granted and not released, each with its expiry. -/
  granted : List (Nat × Int) := []
  /-- The ids drawn so far. -/
  drawn : List Nat := []
  deriving DecidableEq

namespace Desk

/-- One run of the script of `Lease`. -/
def lease (d : Desk) (now : Int) (limit : Nat) (ttl : Int) (id : Nat) : Desk :=
  let ran := d.set.lease limit now ttl id now
  { clock := now
    set := ran.2
    granted := if ran.1.granted then (id, now + ttl) :: d.granted else d.granted
    drawn := id :: d.drawn }

/-- One run of the script of `Release`. -/
def release (d : Desk) (now : Int) (id : Nat) : Desk :=
  { d with
    clock := now
    set := d.set.release id now
    granted := d.granted.filter fun m => m.1 ≠ id }

/-- The leases that are out: granted, not released, and their own time has not passed. -/
def live (d : Desk) (now : Int) : List (Nat × Int) := d.granted.filter fun m => now < m.2

/-- A call by any node. The condition is one on the desk, the time and the ttl. -/
inductive Step (fair : Desk → Int → Int → Prop) : Desk → Desk → Prop where
  | lease {d : Desk} {now ttl : Int} {limit id : Nat} : d.clock ≤ now → 1 ≤ limit → 1 ≤ ttl → id ∉ d.drawn →
      fair d now ttl → Step fair d (d.lease now limit ttl id)
  | release {d : Desk} {now : Int} {id : Nat} : d.clock ≤ now → Step fair d (d.release now id)

abbrev Reaches (fair : Desk → Int → Int → Prop) : Desk → Desk → Prop := Relation.ReflTransGen (Step fair)

def Outlasts (d : Desk) (now ttl : Int) : Prop := ∀ m ∈ d.live now, m.2 ≤ now + ttl

def opened (set : LeaseSet) (clock : Int) : Desk := { set, clock }

structure Sound (d : Desk) : Prop where
  held : ∀ m ∈ d.granted, d.clock < m.2 → m ∈ d.set.members ∧ ∃ last, d.set.expireAt = some last ∧ m.2 ≤ last
  once : (d.granted.map Prod.fst).Nodup
  known : ∀ m ∈ d.granted, m.1 ∈ d.drawn

variable {d : Desk} {now ttl : Int} {limit id : Nat} {m : Nat × Int}

lemma mem_live : m ∈ d.live now ↔ m ∈ d.granted ∧ now < m.2 := by simp [live]

lemma Sound.alive (sound : d.Sound) (later : d.clock ≤ now) (member : m ∈ d.granted) (out : now < m.2) :
    d.set.alive now = d.set := by
  obtain ⟨-, last, expires, lasts⟩ := sound.held m member (by omega)
  unfold LeaseSet.alive
  rw [expires]
  dsimp only
  rw [if_neg (by omega)]

lemma Sound.counted (sound : d.Sound) (later : d.clock ≤ now) (member : m ∈ d.granted) (out : now < m.2) :
    m ∈ d.set.counted now := by
  obtain ⟨there, -⟩ := sound.held m member (by omega)
  unfold LeaseSet.counted
  rw [sound.alive later member out]
  exact LeaseSet.mem_zremRangeByScore there out

lemma Sound.fresh (sound : d.Sound) (unused : id ∉ d.drawn) (member : m ∈ d.granted) : m.1 ≠ id := by
  intro same
  exact unused (same ▸ sound.known m member)

lemma lease_granted_set (granted : (d.set.lease limit now ttl id now).1.granted = true) :
    (d.set.lease limit now ttl id now).2.expireAt = some (now + ttl) ∧
    (d.set.lease limit now ttl id now).2.members =
      (id, now + ttl) :: (d.set.counted now).filter (fun m => m.1 ≠ id) ∧
    (d.set.counted now).length < limit := by
  unfold LeaseSet.lease at granted ⊢
  dsimp only at granted ⊢
  split at granted
  · rename_i room
    rw [if_pos room]
    exact ⟨rfl, rfl, room⟩
  · cases granted

lemma lease_refused_set (refused : (d.set.lease limit now ttl id now).1.granted = false) :
    (d.set.lease limit now ttl id now).2 = (d.set.alive now).zremRangeByScore now := by
  unfold LeaseSet.lease at refused ⊢
  dsimp only at refused ⊢
  split at refused
  · cases refused
  · rename_i full
    rw [if_neg full]

lemma Sound.swept (sound : d.Sound) (later : d.clock ≤ now) (keep : Nat × Int → Bool) (member : m ∈ d.granted)
    (out : now < m.2) (kept : keep m = true) :
    m ∈ ((d.set.alive now).only keep).members ∧
      ∃ last, ((d.set.alive now).only keep).expireAt = some last ∧ m.2 ≤ last := by
  obtain ⟨there, last, expires, lasts⟩ := sound.held m member (by omega)
  rw [sound.alive later member out]
  have stays : m ∈ d.set.members.filter keep := List.mem_filter.mpr ⟨there, kept⟩
  refine ⟨LeaseSet.only_members d.set keep ▸ stays, last, ?_, lasts⟩
  unfold LeaseSet.only
  rw [if_neg (List.ne_nil_of_mem stays)]
  exact expires

lemma Sound.lease (sound : d.Sound) (later : d.clock ≤ now) (unused : id ∉ d.drawn) (fair : d.Outlasts now ttl) :
    (d.lease now limit ttl id).Sound := by
  cases granted : (d.set.lease limit now ttl id now).1.granted with
  | true =>
    obtain ⟨expires, members, -⟩ := lease_granted_set granted
    have there : (d.lease now limit ttl id).granted = (id, now + ttl) :: d.granted := if_pos granted
    refine ⟨fun m member out => ?_, ?_, fun m member => ?_⟩
    · change m ∈ (d.set.lease limit now ttl id now).2.members ∧
        ∃ last, (d.set.lease limit now ttl id now).2.expireAt = some last ∧ m.2 ≤ last
      change now < m.2 at out
      rw [members, expires]
      rw [there] at member
      rcases List.mem_cons.mp member with rfl | old
      · exact ⟨List.mem_cons_self, _, rfl, Int.le_refl _⟩
      · refine ⟨List.mem_cons_of_mem _ (List.mem_filter.mpr ⟨sound.counted later old out, ?_⟩), _, rfl, ?_⟩
        · simpa using sound.fresh unused old
        · exact fair m (mem_live.mpr ⟨old, out⟩)
    · rw [there, List.map_cons, List.nodup_cons]
      refine ⟨fun again => ?_, sound.once⟩
      obtain ⟨m, member, same⟩ := List.mem_map.mp again
      exact sound.fresh unused member same
    · rw [there] at member
      rcases List.mem_cons.mp member with rfl | old
      · exact List.mem_cons_self
      · exact List.mem_cons_of_mem id (sound.known m old)
  | false =>
    have there : (d.lease now limit ttl id).granted = d.granted := if_neg (by simp [granted])
    refine ⟨fun m member out => ?_, there ▸ sound.once, fun m member => ?_⟩
    · change m ∈ (d.set.lease limit now ttl id now).2.members ∧
        ∃ last, (d.set.lease limit now ttl id now).2.expireAt = some last ∧ m.2 ≤ last
      change now < m.2 at out
      rw [lease_refused_set granted]
      exact sound.swept later _ (there ▸ member) out (by simpa using out)
    · exact List.mem_cons_of_mem id (sound.known m (there ▸ member))

lemma Sound.release (sound : d.Sound) (later : d.clock ≤ now) : (d.release now id).Sound := by
  refine ⟨fun m member out => ?_, ?_, fun m member => sound.known m (List.mem_of_mem_filter member)⟩
  · obtain ⟨old, stays⟩ := List.mem_filter.mp member
    exact sound.swept later _ old out stays
  · exact sound.once.sublist (List.filter_sublist.map Prod.fst)

lemma Sound.reached {start : Desk} (sound : start.Sound) (reached : Reaches Outlasts start d) : d.Sound := by
  induction reached with
  | refl => exact sound
  | tail _ step ih =>
    cases step with
    | lease later _ _ unused fair => exact ih.lease later unused fair
    | release later => exact ih.release later

end Desk

end EmailVerifier.Limiter
