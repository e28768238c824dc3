import Mathlib.Data.List.Basic
import Mathlib.Tactic.Basic

/-! The session leases of one pace key: `internal/limiter/lease.lua` as `Leases.Lease` and
`Leases.Release` run it.

The set is a Redis sorted set, so it is gone when its last member is, and by itself once
the expiry that the last grant gave it has passed. Times are milliseconds. A script runs
at a moment of the store's clock with the reading its caller took before.
-/

set_option autoImplicit false

namespace EmailVerifier.Limiter

/-- Member and score: the lease and when it expires. -/
structure LeaseSet where
  members : List (Nat × Int) := []
  expireAt : Option Int := none
  deriving DecidableEq, Repr

structure LeaseReply where
  granted : Bool
  held : Nat
  retryAfter : Int
  deriving DecidableEq, Repr

namespace LeaseSet

def alive (set : LeaseSet) (clock : Int) : LeaseSet :=
  match set.expireAt with
  | some last => if last ≤ clock then {} else set
  | none => set

-- A sorted set without members does not exist.
def only (set : LeaseSet) (keep : Nat × Int → Bool) : LeaseSet :=
  if set.members.filter keep = [] then {} else { set with members := set.members.filter keep }

def zremRangeByScore (set : LeaseSet) (now : Int) : LeaseSet := set.only fun m => now < m.2

def zrem (set : LeaseSet) (id : Nat) : LeaseSet := set.only fun m => m.1 ≠ id

def zadd (set : LeaseSet) (id : Nat) (score : Int) : LeaseSet :=
  { set with members := (id, score) :: set.members.filter fun m => m.1 ≠ id }

def first : List (Nat × Int) → Option Int
  | [] => none
  | m :: more => some ((first more).elim m.2 (min m.2))

def lease (limit : Nat) (now ttl : Int) (id : Nat) (clock : Int) (set : LeaseSet) : LeaseReply × LeaseSet :=
  let kept := (set.alive clock).zremRangeByScore now
  if kept.members.length < limit then
    (⟨true, kept.members.length + 1, 0⟩, { kept.zadd id (now + ttl) with expireAt := some (clock + ttl) })
  else
    (⟨false, kept.members.length, (first kept.members).elim 0 fun score => max 0 (score - now)⟩, kept)

def release (id : Nat) (clock : Int) (set : LeaseSet) : LeaseSet := (set.alive clock).zrem id

/-- Every member is there as long as the key is. -/
def Timed (set : LeaseSet) : Prop := ∀ m ∈ set.members, ∃ last, set.expireAt = some last ∧ m.2 ≤ last

variable {set : LeaseSet} {clock now ttl score : Int} {id other limit : Nat}

lemma mem_alive (timed : set.Timed) (member : (id, score) ∈ set.members) (live : clock < score) :
    (id, score) ∈ (set.alive clock).members := by
  obtain ⟨last, expires, late⟩ := timed _ member
  unfold alive
  rw [expires]
  dsimp only at late ⊢
  rw [if_neg (by omega)]
  exact member

lemma alive_eq_or (set : LeaseSet) (clock : Int) : set.alive clock = {} ∨ set.alive clock = set := by
  unfold alive
  split
  · split
    · exact .inl rfl
    · exact .inr rfl
  · exact .inr rfl

lemma only_members (set : LeaseSet) (keep : Nat × Int → Bool) : (set.only keep).members = set.members.filter keep := by
  unfold only
  split
  · rename_i none
    exact none.symm
  · rfl

lemma Timed.alive (timed : set.Timed) : (set.alive clock).Timed := by
  rcases alive_eq_or set clock with gone | same
  · rw [gone]
    nofun
  · rwa [same]

lemma Timed.only (timed : set.Timed) (keep : Nat × Int → Bool) : (set.only keep).Timed := by
  intro m member
  unfold LeaseSet.only at member ⊢
  split at member
  · cases member
  · rename_i some
    rw [if_neg some]
    exact timed m (List.mem_of_mem_filter member)

lemma length_only_le (set : LeaseSet) (keep : Nat × Int → Bool) :
    (set.only keep).members.length ≤ set.members.length := by
  rw [only_members]
  exact List.length_filter_le _ _

lemma length_alive_le (set : LeaseSet) (clock : Int) : (set.alive clock).members.length ≤ set.members.length := by
  rcases alive_eq_or set clock with gone | same
  · rw [gone]
    exact Nat.zero_le _
  · exact Nat.le_of_eq (by rw [same])

lemma mem_zremRangeByScore (member : (id, score) ∈ set.members) (live : now < score) :
    (id, score) ∈ (set.zremRangeByScore now).members := by
  rw [zremRangeByScore, only_members]
  exact List.mem_filter.mpr ⟨member, by simpa using live⟩

lemma mem_release (timed : set.Timed) (member : (id, score) ∈ set.members) (live : clock < score)
    (stays : id ≠ other) : (id, score) ∈ (set.release other clock).members := by
  rw [release, zrem, only_members]
  exact List.mem_filter.mpr ⟨mem_alive timed member live, by simpa using stays⟩

lemma Timed.release (timed : set.Timed) : (set.release id clock).Timed := timed.alive.only _

lemma length_release_le (set : LeaseSet) (id : Nat) (clock : Int) :
    (set.release id clock).members.length ≤ set.members.length :=
  Nat.le_trans (length_only_le _ _) (length_alive_le _ _)

-- A member that has not expired stays through any script, unless it is released.
lemma mem_lease (timed : set.Timed) (member : (id, score) ∈ set.members) (live : clock < score)
    (read : now ≤ clock) (stays : id ≠ other) : (id, score) ∈ (set.lease limit now ttl other clock).2.members := by
  have kept : (id, score) ∈ ((set.alive clock).zremRangeByScore now).members :=
    mem_zremRangeByScore (mem_alive timed member live) (by omega)
  unfold lease
  dsimp only
  split
  · refine List.mem_cons_of_mem _ (List.mem_filter.mpr ⟨kept, ?_⟩)
    simpa using stays
  · exact kept

lemma Timed.lease (timed : set.Timed) (read : now ≤ clock) (after : ∀ last, set.expireAt = some last → last ≤ clock + ttl) :
    (set.lease limit now ttl id clock).2.Timed := by
  have kept : ((set.alive clock).zremRangeByScore now).Timed := timed.alive.only _
  unfold LeaseSet.lease
  dsimp only
  split
  · intro m member
    refine ⟨clock + ttl, rfl, ?_⟩
    rcases List.mem_cons.mp member with rfl | old
    · dsimp only
      omega
    · have there := List.mem_of_mem_filter old
      rw [zremRangeByScore, only_members] at there
      have before := List.mem_of_mem_filter there
      rcases alive_eq_or set clock with gone | same
      · rw [gone] at before
        cases before
      · rw [same] at before
        obtain ⟨last, expires, late⟩ := timed m before
        have := after last expires
        omega
  · exact kept

lemma only_expireAt {keep : Nat × Int → Bool} {last : Int} (expires : (set.only keep).expireAt = some last) :
    set.expireAt = some last := by
  unfold only at expires
  split at expires
  · cases expires
  · exact expires

lemma alive_expireAt {last : Int} (expires : (set.alive clock).expireAt = some last) : set.expireAt = some last := by
  rcases alive_eq_or set clock with gone | same
  · rw [gone] at expires
    cases expires
  · rwa [same] at expires

lemma lease_expireAt {last : Int} (expires : (set.lease limit now ttl id clock).2.expireAt = some last) :
    last = clock + ttl ∨ set.expireAt = some last := by
  unfold lease at expires
  dsimp only at expires
  split at expires
  · cases expires
    exact .inl rfl
  · exact .inr (alive_expireAt (only_expireAt expires))

lemma lease_granted (granted : (set.lease limit now ttl id clock).1.granted = true) :
    (id, now + ttl) ∈ (set.lease limit now ttl id clock).2.members ∧
      (set.lease limit now ttl id clock).2.members.length ≤ limit := by
  unfold lease at granted ⊢
  dsimp only at granted ⊢
  split
  · rename_i room
    refine ⟨List.mem_cons_self, ?_⟩
    have fewer := List.length_filter_le (fun m => decide (m.1 ≠ id)) ((set.alive clock).zremRangeByScore now).members
    simp only [zadd, List.length_cons]
    omega
  · rename_i full
    rw [if_neg full] at granted
    cases granted

end LeaseSet

end EmailVerifier.Limiter
