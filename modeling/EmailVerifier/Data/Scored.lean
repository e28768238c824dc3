import EmailVerifier.Data.Table
import Mathlib.Data.List.Dedup

/-! Sets of scored members that expire, as Redis keeps them, and the use of one to tell who
was seen of late.

Each member has the moment it was last seen for a score. Whoever fell out of the window is
dropped when somebody is seen, and the whole set goes by itself some time after that. Both
are only to save room: `Tracks` says that the window can be read off the set as off a log in
which nothing is ever dropped.
-/

set_option autoImplicit false

namespace EmailVerifier.Data

/-- Members with their scores, and when they are all gone. -/
structure Scored (A : Type) where
  members : Table A Int := ∅
  expireAt : Option Int := none

namespace Scored

variable {A : Type}

def alive (set : Scored A) (clock : Int) : Scored A :=
  match set.expireAt with
  | some last => if last ≤ clock then {} else set
  | none => set

-- A set without members does not exist, and so does not expire.
def dropBelow (set : Scored A) (bound : Int) : Scored A :=
  let kept := set.members.keep fun _ score => decide (bound ≤ score)
  if kept.keys = [] then {} else { set with members := kept }

def card (set : Scored A) : Nat := set.members.keys.length

/-- The set is given so long to live, and is gone at once if that is no time. -/
def expireIn (set : Scored A) (ttl clock : Int) : Scored A :=
  if ttl ≤ 0 then {}
  else if set.members.keys = [] then set
  else { set with expireAt := some (clock + ttl) }

def Live (set : Scored A) (clock : Int) : Prop := ∀ last, set.expireAt = some last → clock < last

variable {set : Scored A} {clock clock' bound score span ttl : Int} {a : A} {log : List (A × Int)}

lemma alive_of_live (live : set.Live clock) : set.alive clock = set := by
  unfold alive
  split
  · rename_i last expires
    exact if_neg (Int.not_le.mpr (live last expires))
  · rfl

lemma alive_live (set : Scored A) (clock : Int) : (set.alive clock).Live clock := by
  intro last expires
  unfold alive at expires
  split at expires
  · split at expires
    · cases expires
    · rename_i stands early
      cases stands.symm.trans expires
      exact Int.not_le.mp early
  · rename_i never
    cases never.symm.trans expires

lemma Live.dropBelow (live : set.Live clock) : (set.dropBelow bound).Live clock := by
  unfold Scored.dropBelow
  dsimp only
  split
  · nofun
  · exact live

variable [DecidableEq A]

def add (set : Scored A) (a : A) (score : Int) : Scored A := { set with members := set.members.insert a score }

lemma Live.add (live : set.Live clock) : (set.add a score).Live clock := live

lemma lookup_alive (found : (set.alive clock).members.lookup a = some score) : set.members.lookup a = some score := by
  unfold alive at found
  split at found
  · split at found
    · cases found
    · exact found
  · exact found

lemma lookup_dropBelow : (set.dropBelow bound).members.lookup a = some score ↔
    set.members.lookup a = some score ∧ bound ≤ score := by
  have kept : (set.dropBelow bound).members = set.members.keep fun _ score => decide (bound ≤ score) := by
    unfold dropBelow
    dsimp only
    split
    · rename_i none
      exact AList.ext (List.map_eq_nil_iff.mp none).symm
    · rfl
  rw [kept, Table.lookup_keep_iff, decide_eq_true_eq]

lemma mem_keys_iff {b : A} : b ∈ set.members.keys ↔ ∃ score, set.members.lookup b = some score := by
  rw [← AList.mem_keys, ← AList.lookup_isSome, Option.isSome_iff_exists]

def seenSince (bound : Int) (log : List (A × Int)) : Nat :=
  ((log.filter fun e => decide (bound ≤ e.2)).map Prod.fst).dedup.length

/-- The log and the set agree on every window that ends now and is no longer than `span`,
and the set does not expire before the last of it is out of the window. -/
structure Tracks (span clock : Int) (log : List (A × Int)) (set : Scored A) : Prop where
  recent : ∀ a bound, clock - span ≤ bound →
    ((∃ score, bound ≤ score ∧ set.members.lookup a = some score) ↔ ∃ score, bound ≤ score ∧ (a, score) ∈ log)
  past : ∀ e ∈ log, e.2 ≤ clock
  lasting : ∀ a score, set.members.lookup a = some score → ∃ last, set.expireAt = some last ∧ score + span < last

/-- Those in the window, when `a` is seen. -/
def window (set : Scored A) (a : A) (span clock : Int) : Scored A :=
  ((set.alive clock).add a clock).dropBelow (clock - span)

/-- Somebody is seen: noted at this moment, those out of the window dropped, and the set
given a new time to live. -/
def see (set : Scored A) (a : A) (span ttl clock : Int) : Scored A := (set.window a span clock).expireIn ttl clock

namespace Tracks

lemma start (span clock : Int) : Tracks span clock [] ({} : Scored A) := by
  refine ⟨fun a bound _ => ?_, nofun, nofun⟩
  simp

variable (tracks : Tracks span clock log set)
include tracks

lemma later (passed : clock ≤ clock') : Tracks span clock' log set where
  recent a bound within := tracks.recent a bound (by omega)
  past e member := Int.le_trans (tracks.past e member) passed
  lasting := tracks.lasting

lemma alive_iff (within : clock - span ≤ score) :
    (set.alive clock).members.lookup a = some score ↔ set.members.lookup a = some score := by
  refine ⟨lookup_alive, fun found => ?_⟩
  obtain ⟨last, expires, late⟩ := tracks.lasting a score found
  have live : set.Live clock := by
    intro last' expires'
    cases expires.symm.trans expires'
    omega
  rwa [alive_of_live live]

lemma lookup_window (b : A) :
    (set.window a span clock).members.lookup b = some score ↔
      clock - span ≤ score ∧ if b = a then score = clock else set.members.lookup b = some score := by
  unfold window add
  rw [lookup_dropBelow, and_comm, Table.lookup_insert_ite]
  refine and_congr_right fun within => ?_
  split
  · rw [Option.some_inj, eq_comm]
  · exact tracks.alive_iff within

lemma recent_window (wide : 0 ≤ span) (b : A) (within : clock - span ≤ bound) :
    (∃ score, bound ≤ score ∧ (set.window a span clock).members.lookup b = some score) ↔
      ∃ score, bound ≤ score ∧ (b, score) ∈ (a, clock) :: log := by
  simp only [tracks.lookup_window, List.mem_cons, Prod.mk.injEq]
  by_cases same : b = a
  · simp only [same, if_true, true_and]
    constructor
    · rintro ⟨score, late, -, rfl⟩
      exact ⟨score, late, .inl rfl⟩
    · rintro ⟨score, late, rfl | logged⟩
      · exact ⟨score, late, by omega, rfl⟩
      · exact ⟨clock, Int.le_trans late (tracks.past _ logged), by omega, rfl⟩
  · simp only [same, if_false, false_and, false_or]
    rw [← tracks.recent b bound within]
    refine exists_congr fun score => and_congr_right fun late => ?_
    exact and_iff_right (Int.le_trans within late)

lemma card_window (wide : 0 ≤ span) : (set.window a span clock).card = seenSince (clock - span) ((a, clock) :: log) := by
  refine List.Perm.length_eq ((List.perm_ext_iff_of_nodup (AList.keys_nodup _) (List.nodup_dedup _)).mpr fun b => ?_)
  have agree := tracks.recent_window (a := a) wide b (Int.le_refl (clock - span))
  rw [mem_keys_iff, List.mem_dedup, List.mem_map]
  constructor
  · rintro ⟨score, found⟩
    obtain ⟨score', late, logged⟩ := agree.mp ⟨score, (tracks.lookup_window b |>.mp found).1, found⟩
    exact ⟨(b, score'), List.mem_filter.mpr ⟨logged, decide_eq_true late⟩, rfl⟩
  · rintro ⟨⟨_, score⟩, logged, rfl⟩
    obtain ⟨logged, late⟩ := List.mem_filter.mp logged
    obtain ⟨score', -, found⟩ := agree.mpr ⟨score, of_decide_eq_true late, logged⟩
    exact ⟨score', found⟩

lemma see (wide : 0 ≤ span) (longer : span < ttl) : Tracks span clock ((a, clock) :: log) (set.see a span ttl clock) := by
  have here : a ∈ (set.window a span clock).members.keys :=
    mem_keys_iff.mpr ⟨clock, (tracks.lookup_window a).mpr ⟨by omega, by simp⟩⟩
  have is : set.see a span ttl clock = { set.window a span clock with expireAt := some (clock + ttl) } := by
    unfold Scored.see expireIn
    rw [if_neg (by omega), if_neg (List.ne_nil_of_mem here)]
  rw [is]
  refine ⟨fun b bound within => tracks.recent_window wide b within, ?_, ?_⟩
  · exact List.forall_mem_cons.mpr ⟨Int.le_refl _, tracks.past⟩
  · intro b score found
    have within := ((tracks.lookup_window b).mp found).1
    obtain ⟨score', late, logged⟩ := (tracks.recent_window wide b within).mp ⟨score, Int.le_refl _, found⟩
    refine ⟨clock + ttl, rfl, ?_⟩
    rcases List.mem_cons.mp logged with new | old
    · cases new
      omega
    · have := tracks.past _ old
      dsimp only at this
      omega

end Tracks

lemma seenSince_le_one (alone : ∀ e ∈ log, e.1 = a) : seenSince bound log ≤ 1 := by
  have only : ((log.filter fun e => decide (bound ≤ e.2)).map Prod.fst).dedup ⊆ [a] := by
    intro b member
    obtain ⟨e, logged, rfl⟩ := List.mem_map.mp (List.mem_dedup.mp member)
    exact List.mem_singleton.mpr (alone e (List.mem_of_mem_filter logged))
  exact (List.subperm_of_subset (List.nodup_dedup _) only).length_le

end Scored

end EmailVerifier.Data
