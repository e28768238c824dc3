import EmailVerifier.Pacer.Spelling
import EmailVerifier.Pacer.WorkingPoint

/-! How many entries a process keeps.

Making an entry makes room first, so the states never outnumber the limit, but for the
empty name, which the search for the oldest entry takes for none. The counts of open
sessions are never cleared away: what bounds them is how many systems there were.
-/

set_option autoImplicit false

namespace EmailVerifier.Pacer
open Text Data Semantics

namespace Memory
variable {m : Memory} {keys : List Str} {maxTracked : Int}

lemma oldest_from (found : Str × Int) (named : ∀ key ∈ keys, key ≠ []) :
    let last := keys.foldl (fun found key =>
      if found.1 = [] ∨ m.lastUsed key < found.2 then (key, m.lastUsed key) else found) found
    last = found ∨ last.1 ∈ keys := by
  induction keys generalizing found with
  | nil => exact .inl rfl
  | cons key keys ih =>
    obtain ⟨-, later⟩ := List.forall_mem_cons.mp named
    rw [List.foldl_cons]
    split
    · rcases ih (key, m.lastUsed key) later with here | there
      · rw [here]
        exact .inr List.mem_cons_self
      · exact .inr (List.mem_cons_of_mem _ there)
    · exact (ih found later).imp_right (List.mem_cons_of_mem _)

lemma oldest_mem (some : keys ≠ []) (named : ∀ key ∈ keys, key ≠ []) : m.oldest keys ∈ keys := by
  match keys, some with
  | key :: keys, _ =>
    obtain ⟨-, later⟩ := List.forall_mem_cons.mp named
    unfold oldest
    rw [List.foldl_cons, if_pos (.inl rfl)]
    rcases oldest_from (m := m) (key, m.lastUsed key) later with here | there
    · rw [here]
      exact List.mem_cons_self
    · exact List.mem_cons_of_mem _ there

lemma shrink_room (limit : 0 < maxTracked) {fuel : Nat} (enough : m.mx.keys.length < fuel)
    (named : ∀ key ∈ m.mx.keys, key ≠ []) : ((m.shrink maxTracked fuel).mx.keys.length : Int) < maxTracked := by
  induction fuel generalizing m with
  | zero => omega
  | succ fuel ih =>
    unfold shrink
    split
    · rename_i full
      have some : m.mx.keys ≠ [] := by
        intro none
        rw [none] at full
        exact absurd limit (not_lt.mpr full)
      have member := oldest_mem (m := m) some named
      rw [if_neg (named _ member)]
      refine ih ?_ fun key inside => named key (Table.keys_subset_of_lookup (fun _ _ => forget_lookup) inside)
      have shorter := Table.keys_erase_length (AList.mem_keys.mpr member)
      change (m.mx.erase _).keys.length < fuel
      omega
    · rename_i room
      exact not_le.mp room

lemma evictLocked_room {o : Options} (limit : 0 < o.maxTracked) (now : Time) (named : ∀ key ∈ m.mx.keys, key ≠ []) :
    ((m.evictLocked o now).mx.keys.length : Int) < o.maxTracked :=
  shrink_room limit (Nat.lt_succ_self _) fun key inside =>
    named key (Table.keys_subset_of_lookup (fun _ _ => forgetAll_lookup) inside)

lemma forgetAll_inflight (keys : List Str) (m : Memory) : (keys.foldl forget m).inflight = m.inflight := by
  induction keys generalizing m with
  | nil => rfl
  | cons key keys ih => exact ih (m.forget key)

lemma shrink_inflight (maxTracked : Int) (fuel : Nat) (m : Memory) :
    (m.shrink maxTracked fuel).inflight = m.inflight := by
  induction fuel generalizing m with
  | zero => rfl
  | succ fuel ih =>
    unfold shrink
    split
    · split
      · rfl
      · exact ih _
    · rfl

def held (m : Memory) : Nat := Table.total Int.toNat m.inflight

/-- The keys with a count that have no session open. -/
def resting (m : Memory) : Nat := Table.total (fun n : Int => if n ≤ 0 then 1 else 0) m.inflight

end Memory

def Section.counts : Section → Bool
  | .enter _ | .leave _ => true
  | _ => false

section
variable {o : Options} {now : Time} {got : Got} {m : Memory} {sec : Section}

lemma elim_write_inflight (m : Memory) (ref : Nat) (f : MXState → MXState) :
    ((m.objects[ref]?).elim m fun st => m.write ref (f st)).inflight = m.inflight := by
  cases m.objects[ref]? <;> rfl

lemma run_inflight (o : Options) (now : Time) (got : Got) (m : Memory) (other : sec.counts = false) :
    (sec.run o now got m).2.inflight = m.inflight := by
  cases sec with
  | find key =>
    simp only [Section.run]
    split
    · rfl
    · exact elim_write_inflight _ _ _
  | install key band start =>
    simp only [Section.run]
    split
    · exact elim_write_inflight _ _ _
    · exact (Memory.shrink_inflight _ _ _).trans (Memory.forgetAll_inflight _ _)
  | budget ref | room ref | forget key => rfl
  | enter key | leave key => cases other
  | observe key throttled =>
    simp only [Section.run]
    split
    · rfl
    · split <;> rfl
  | pauseKey key till | resumeKey key =>
    simp only [Section.run]
    cases m.mx.lookup key with
    | none => rfl
    | some ref => exact elim_write_inflight _ _ _

lemma run_states (limit : 0 < o.maxTracked) (named : ∀ key ∈ m.mx.keys, key ≠ [])
    (few : (m.mx.keys.length : Int) ≤ o.maxTracked) : ((sec.run o now got m).2.mx.keys.length : Int) ≤ o.maxTracked := by
  by_cases loads : ∃ key band start, sec = .install key band start ∧ m.mx.lookup key = none
  · obtain ⟨key, band, start, rfl, absent⟩ := loads
    simp only [Section.run, absent]
    have room := Memory.evictLocked_room limit now named
    have one := Table.keys_insert_length_le key (m.evictLocked o now).objects.length (m.evictLocked o now).mx
    change (((m.evictLocked o now).mx.insert key _).keys.length : Int) ≤ _
    omega
  · have fewer : (sec.run o now got m).2.mx.keys.length ≤ m.mx.keys.length := by
      refine Table.keys_length_le_of_lookup fun key ref found => ?_
      rcases run_lookup found with before | ⟨band, start, is, absent, -, -⟩
      · exact before
      · exact absurd ⟨key, band, start, is, absent⟩ loads
    omega

structure Memory.Bounded (o : Options) (m : Memory) : Prop where
  named : ∀ key ∈ m.mx.keys, key ≠ []
  states : (m.mx.keys.length : Int) ≤ o.maxTracked
  resting : (m.resting : Int) ≤ o.maxTracked

/-- What a section may not do: make an entry for the empty name, open a session where the
count is at its end, or give back the last session of a key when as many keys as may be
tracked have none open. -/
def Section.Affordable (o : Options) (m : Memory) : Section → Prop
  | .install key _ _ => key ≠ []
  | .enter key => (m.inflight.lookup key).getD 0 < 2 ^ 63 - 1
  | .leave key => (m.inflight.lookup key).getD 0 = 1 → (m.resting : Int) < o.maxTracked
  | _ => True

namespace Memory

-- One more session: the key is not among those at rest any more.
lemma resting_enter {key : Str} (short : (m.inflight.lookup key).getD 0 < 2 ^ 63 - 1) :
    resting { m with inflight := m.inflight.insert key (wrap64 ((m.inflight.lookup key).getD 0 + 1)) } ≤ m.resting := by
  have sum := Table.total_insert (fun n : Int => if n ≤ 0 then 1 else 0) key
    (wrap64 ((m.inflight.lookup key).getD 0 + 1)) m.inflight
  have grows : 0 < (m.inflight.lookup key).getD 0 → 0 < wrap64 ((m.inflight.lookup key).getD 0 + 1) := by
    intro busy
    rw [wrap64_of_fits ⟨by omega, by omega⟩]
    omega
  simp only [resting]
  generalize m.inflight.insert key _ = counts at sum ⊢
  cases found : m.inflight.lookup key with
  | none =>
    rw [found] at sum
    exact sum.le
  | some n =>
    rw [found] at sum grows
    simp only [Option.elim_some, Option.getD_some] at sum grows
    split at sum <;> split at sum <;> omega

-- One session less: if it was the last, the key is at rest.
lemma resting_leave {key : Str} (open_ : 0 < (m.inflight.lookup key).getD 0) :
    resting { m with inflight := m.inflight.insert key ((m.inflight.lookup key).getD 0 - 1) } ≤
      m.resting + if (m.inflight.lookup key).getD 0 = 1 then 1 else 0 := by
  have sum := Table.total_insert (fun n : Int => if n ≤ 0 then 1 else 0) key ((m.inflight.lookup key).getD 0 - 1) m.inflight
  simp only [resting]
  split at sum <;> split <;> omega

variable (bounded : m.Bounded o)
include bounded

lemma Bounded.run (limit : 0 < o.maxTracked) (now : Time) (got : Got)
    (affordable : sec.Affordable o m) : (sec.run o now got m).2.Bounded o := by
  have before := bounded.resting
  refine ⟨fun key member => ?_, run_states limit bounded.named bounded.states, ?_⟩
  · obtain ⟨ref, found⟩ := Option.isSome_iff_exists.mp (AList.lookup_isSome.mpr (AList.mem_keys.mpr member))
    rcases run_lookup found with before | ⟨band, start, rfl, -, -, -⟩
    · exact bounded.named key (AList.mem_keys.mp (AList.lookup_isSome.mp (by rw [before]; rfl)))
    · exact affordable
  by_cases counting : sec.counts = true
  · cases sec with
    | enter key => exact (Int.ofNat_le.mpr (resting_enter affordable)).trans before
    | leave key =>
      simp only [Section.run]
      split
      · rename_i open_
        have more := resting_leave open_
        split at more
        · rename_i last
          have room := affordable last
          omega
        · omega
      · exact before
    | _ => cases counting
  · rw [Memory.resting, run_inflight o now got m (Bool.eq_false_iff.mpr counting)]
    exact before

lemma Bounded.drop (keys : List Str) : (keys.foldl forget m).Bounded o where
  named key member := bounded.named key (Table.keys_subset_of_lookup (fun _ _ => forgetAll_lookup) member)
  states := by
    have fewer : (keys.foldl forget m).mx.keys.length ≤ _ := Table.keys_length_le_of_lookup fun _ _ => forgetAll_lookup
    have few := bounded.states
    omega
  resting := by
    rw [Memory.resting, forgetAll_inflight]
    exact bounded.resting

end Memory

end

section
variable [Unicode] [Codec] {o : Options}

def Op.Named : Op → Prop
  | .locked (.install key _ _) => key ≠ []
  | _ => True

/-- Sessions are opened and given back as they can be afforded. -/
def Op.Affordable (o : Options) (s : Node) : Op → Prop
  | .locked (.enter key) => (Section.enter key).Affordable o s.memory
  | .locked (.leave key) => (Section.leave key).Affordable o s.memory
  | _ => True

omit [Unicode] [Codec] in
lemma Memory.Bounded.serves {s s' : Node} {e : Event calls} (bounded : s.memory.Bounded o) (limit : 0 < o.maxTracked)
    (named : e.op.Named) (affordable : e.op.Affordable o s) (served : Serves o true s e s') : s'.memory.Bounded o := by
  cases served with
  | @entered _ sec t got _ =>
    refine bounded.run limit t got ?_
    cases sec with
    | install key band start => exact named
    | enter key | leave key => exact affordable
    | _ => trivial
  | _ => exact bounded

end

instance (o : Options) (s : Node) (op : Op) : Decidable (op.Affordable o s) := by
  unfold Op.Affordable Section.Affordable
  split <;> infer_instance

def single : Options := { maxTracked := 1, leases := true }

def session (mxHost : Str) : List Call := [.acquireSession 1 mxHost [], .release mxHost (lit "lease")]

end EmailVerifier.Pacer
