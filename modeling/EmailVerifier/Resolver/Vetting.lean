import EmailVerifier.Resolver.Resolve

/-! Whatever is resolved has passed the guard, now or when it was stored. -/

set_option autoImplicit false

namespace EmailVerifier.Resolver
open Text Data Semantics

def Vetted (addrs : List Addr) : Prop := ∀ a ∈ addrs, (Blocked a).1 = false

namespace Cache

variable {c : Cache}

structure Alike (c c' : Cache) : Prop where
  ttl : c'.ttl = c.ttl
  negTTL : c'.negTTL = c.negTTL
  max : c'.max = c.max

lemma Alike.holds {c' : Cache} (alike : Alike c c') (err : Option Err) : c'.holds err = c.holds err := by
  unfold Cache.holds
  rw [alike.ttl, alike.negTTL]

lemma get_alike (c : Cache) (now : Int) (host : Str) : Alike c (c.get now host).2 := by
  unfold get
  split
  · exact ⟨rfl, rfl, rfl⟩
  · split <;> exact ⟨rfl, rfl, rfl⟩

lemma evictLocked_alike (c : Cache) (now : Int) (victim : Str) : Alike c (c.evictLocked now victim) := by
  unfold evictLocked
  split <;> exact ⟨rfl, rfl, rfl⟩

lemma put_alike (c : Cache) (now later : Int) (victim host : Str) (addrs : List Addr) (err : Option Err) :
    Alike c (c.put now later victim host addrs err) := by
  unfold put
  dsimp only
  split
  · obtain ⟨ttl, negTTL, max⟩ := c.evictLocked_alike now victim
    exact ⟨ttl, negTTL, max⟩
  · exact ⟨rfl, rfl, rfl⟩

/-! Asking the cache and making room in it add no entry. -/

variable {now : Int} {host victim key : Str} {e : Entry}

lemma lookup_of_get
    (found : (c.get now host).2.entries.lookup key = some e) : c.entries.lookup key = some e := by
  unfold get at found
  split at found
  · exact found
  · split at found
    · exact Table.lookup_of_erase found
    · exact found

lemma lookup_of_evictLocked
    (found : (c.evictLocked now victim).entries.lookup key = some e) : c.entries.lookup key = some e := by
  unfold evictLocked at found
  split at found
  · exact Table.lookup_of_keep found
  · exact Table.lookup_of_keep (Table.lookup_of_erase found)

lemma lookup_of_put {later : Int} {addrs : List Addr} {err : Option Err}
    (found : (c.put now later victim host addrs err).entries.lookup key = some e) :
    (key = host ∧ e = ⟨addrs, err, later + c.holds err⟩) ∨ c.entries.lookup key = some e := by
  unfold put at found
  simp only [Table.lookup_insert_ite] at found
  split at found
  · rename_i same
    exact .inl ⟨same, (Option.some.inj found).symm⟩
  · right
    split at found
    · exact lookup_of_evictLocked found
    · exact found

lemma get_hit (hit : (c.get now host).1 = some e) : c.entries.lookup host = some e ∧ now ≤ e.expires := by
  unfold get at hit
  split at hit
  · cases hit
  · rename_i e' found
    split at hit
    · cases hit
    · rename_i fresh
      cases hit
      exact ⟨found, not_lt.mp fresh⟩

/-! Its size. -/

lemma keep_size_le (c : Cache) (test : Str → Entry → Bool) : (c.keep test).size ≤ c.size :=
  Int.ofNat_le.mpr (Table.keep_length_le test c.entries)

lemma delete_size_le (c : Cache) (host : Str) : (c.delete host).size ≤ c.size :=
  Int.ofNat_le.mpr (Table.keys_erase_length_le host c.entries)

lemma delete_size (member : host ∈ c.entries) : (c.delete host).size + 1 = c.size :=
  congrArg Int.ofNat (Table.keys_erase_length member)

lemma get_size_le (c : Cache) (now : Int) (host : Str) : (c.get now host).2.size ≤ c.size := by
  unfold get
  split
  · exact le_refl _
  · split
    · exact c.delete_size_le host
    · exact le_refl _

-- A full cache that made room has room for one more.
lemma evictLocked_size (few : c.size ≤ c.max)
    (chosen : (c.sweep now).size < c.max ∨ victim ∈ (c.sweep now).entries) : (c.evictLocked now victim).size < c.max := by
  unfold evictLocked
  split
  · assumption
  · rename_i full
    have fewer := delete_size (chosen.resolve_left full)
    have swept : (c.sweep now).size ≤ c.size := c.keep_size_le _
    omega

lemma put_size {later : Int} {addrs : List Addr} {err : Option Err} (few : c.size ≤ c.max)
    (chosen : (c.sweep now).size < c.max ∨ victim ∈ (c.sweep now).entries) :
    (c.put now later victim host addrs err).size ≤ c.max := by
  have room : (if c.max ≤ c.size then c.evictLocked now victim else c).size < c.max := by
    split
    · exact evictLocked_size few chosen
    · rename_i room
      exact not_le.mp room
  have more : (c.put now later victim host addrs err).size ≤
      (if c.max ≤ c.size then c.evictLocked now victim else c).size + 1 :=
    Int.ofNat_le.mpr (Table.keys_insert_length_le host _ _)
  omega

end Cache

def noteHit (hit : Option Entry) : Event calls → Option Entry
  | ⟨.get _, answer⟩ => answer
  | _ => hit

def StoresVetted (e : Event calls) : Prop :=
  match e.op with
  | .put _ addrs _ => Vetted addrs
  | _ => True

def Passed (answer : Answered) (hit : Option Entry) : Prop :=
  Vetted answer.1 ∨ ∃ e, hit = some e ∧ answer = (e.addrs, e.err)

lemma vet_vetted (host : Str) (addrs : List Addr) : Vetted (vet host addrs).1 := by
  unfold vet
  refine List.foldlRecOn (motive := fun (found : List Addr × Option Err) => Vetted found.1) addrs _ ?_ ?_
  · intro b member
    cases member
  · rintro ⟨out, first⟩ vetted a -
    dsimp only
    split
    · exact vetted
    · rename_i fine
      exact forall_mem_snoc.mpr ⟨vetted, Bool.not_eq_true _ ▸ fine⟩

/-- The cache is within its bounds, and holds what was stored, vetted, for as long as it may. -/
structure Sound (o : Options) (s : Shared) : Prop where
  alike : Cache.Alike (newCache o.cacheTTL o.negativeTTL o.cacheSize) s.cache
  few : s.cache.size ≤ s.cache.max
  recorded : ∀ host e, s.cache.entries.lookup host = some e → ∃ st ∈ s.stored, st.host = host ∧ st.addrs = e.addrs ∧
    st.err = e.err ∧ st.time ≤ s.clock ∧ e.expires = st.time + s.cache.holds st.err
  vetted : ∀ st ∈ s.stored, Vetted st.addrs

-- Entries can be dropped and time can pass.
variable {o : Options} {s : Shared}

lemma Sound.fewer {c : Cache} {now : Int} (sound : Sound o s) (alike : Cache.Alike s.cache c)
    (fewer : c.size ≤ s.cache.size) (old : ∀ host e, c.entries.lookup host = some e → s.cache.entries.lookup host = some e)
    (later : s.clock ≤ now) : Sound o { s with cache := c, clock := now } := by
  refine ⟨?_, ?_, fun host e found => ?_, sound.vetted⟩
  · obtain ⟨ttl, negTTL, max⟩ := sound.alike
    exact ⟨alike.ttl.trans ttl, alike.negTTL.trans negTTL, alike.max.trans max⟩
  · rw [alike.max]
    exact fewer.trans sound.few
  · obtain ⟨st, member, same, addrs, err, time, expires⟩ := sound.recorded host e (old host e found)
    refine ⟨st, member, same, addrs, err, time.trans later, ?_⟩
    rw [alike.holds]
    exact expires

lemma Sound.serves {s' : Shared} {e : Event calls} (sound : Sound o s) (stores : StoresVetted e)
    (served : Serves s e s') : Sound o s' := by
  cases served with
  | looked => exact sound
  | @got _ host now later =>
    exact sound.fewer (s.cache.get_alike now host) (s.cache.get_size_le now host)
      (fun _ _ found => Cache.lookup_of_get found) later
  | @put _ host addrs err now later victim time time' chosen =>
    have alike := s.cache.put_alike now later victim host addrs err
    refine ⟨?_, ?_, fun key e found => ?_, fun st member => ?_⟩
    · obtain ⟨ttl, negTTL, max⟩ := sound.alike
      exact ⟨alike.ttl.trans ttl, alike.negTTL.trans negTTL, alike.max.trans max⟩
    · rw [alike.max]
      exact Cache.put_size sound.few chosen
    · simp only [alike.holds]
      rcases Cache.lookup_of_put found with ⟨rfl, rfl⟩ | old
      · exact ⟨_, List.mem_append_right _ (List.mem_singleton_self _), rfl, rfl, rfl, le_refl _, rfl⟩
      · obtain ⟨st, member, same, addrs, err, before, expires⟩ := sound.recorded key e old
        exact ⟨st, List.mem_append_left _ member, same, addrs, err, before.trans (time.trans time'), expires⟩
    · revert st
      exact forall_mem_snoc.mpr ⟨sound.vetted, stores⟩

-- What is taken out of the cache has been vetted.
lemma Sound.hit {now : Int} {host : Str} {e : Entry} (sound : Sound o s)
    (hit : (s.cache.get now host).1 = some e) : ∃ st ∈ s.stored, st.host = host ∧ st.addrs = e.addrs ∧ st.err = e.err ∧
      st.time ≤ s.clock ∧ now ≤ st.time + s.cache.holds st.err ∧ Vetted e.addrs := by
  obtain ⟨found, fresh⟩ := Cache.get_hit hit
  obtain ⟨st, member, same, addrs, err, time, expires⟩ := sound.recorded host e found
  rw [expires] at fresh
  exact ⟨st, member, same, addrs, err, time, fresh, addrs ▸ sound.vetted st member⟩

def HitVetted (did : Trace calls) : Prop := ∀ e, did.foldl noteHit none = some e → Vetted e.addrs

structure AllSound (o : Options) (pool : Calls) : Prop where
  shared : Sound o pool.shared
  running : ∀ proc ∈ pool.running, HitVetted proc.did
  gone : ∀ left ∈ pool.gone, HitVetted left.1

lemma HitVetted.act {s' : Shared} {did : Trace calls} {e : Event calls} (sound : Sound o s)
    (before : HitVetted did) (served : Serves s e s') : HitVetted (did ++ [e]) := by
  intro entry hit
  rw [List.foldl_append] at hit
  cases served with
  | @got _ host now later =>
    obtain ⟨st, -, -, -, -, -, -, vetted⟩ := sound.hit hit
    exact vetted
  | looked | put _ _ _ => exact before entry hit

section
variable [Literals] {o : Options}

lemma AllSound.step {pool pool' : Calls}
    (orderly : pool.Orderly (fun _ e => StoresVetted e) noteHit Passed none) (sound : AllSound o pool)
    (step : Pool.Step (resolvers o) pool pool') : AllSound o pool' := by
  obtain ⟨shared, running, gone⟩ := sound
  cases step with
  | spawn job =>
    exact ⟨shared, forall_mem_snoc.mpr ⟨running, nofun⟩, gone⟩
  | @act _ s' before after _ did op next a served _ =>
    have mine := running ⟨did, .perform op next⟩ (by simp)
    obtain ⟨_, ⟨stores, -⟩, -⟩ := orderly.running ⟨did, .perform op next⟩ (by simp) a
    refine ⟨shared.serves stores served, fun proc member => ?_, gone⟩
    simp only [List.mem_append, List.mem_cons] at member
    rcases member with old | rfl | old
    · exact running proc (by simp [old])
    · exact mine.act shared served
    · exact running proc (by simp [old])
  | @finish _ before after _ did a =>
    refine ⟨shared, fun proc member => running proc (by simp at member ⊢; tauto), forall_mem_snoc.mpr ⟨gone, ?_⟩⟩
    exact running ⟨did, .done a⟩ (by simp)
  | @crash _ before after _ proc _ =>
    refine ⟨shared, fun proc member => running proc (by simp at member ⊢; tauto), forall_mem_snoc.mpr ⟨gone, ?_⟩⟩
    exact running proc (by simp)
  | drift drifts =>
    obtain ⟨later, test, time, rfl⟩ := drifts
    refine ⟨?_, running, gone⟩
    exact shared.fewer ⟨rfl, rfl, rfl⟩ (pool.shared.cache.keep_size_le test) (fun _ _ found => Table.lookup_of_keep found) time

omit [Literals] in
lemma started_sound (o : Options) (clock : Int) : AllSound o (started o clock) := by
  refine ⟨⟨⟨rfl, rfl, rfl⟩, ?_, fun host e found => ?_, nofun⟩, nofun, nofun⟩
  · change (0 : Int) ≤ (if o.cacheSize ≤ 0 then 4096 else o.cacheSize)
    split <;> omega
  · cases (AList.lookup_empty host).symm.trans found

end

instance plainLiterals : Literals where
  parseAddr host :=
    match (split 46 host).map digitsValue with
    | [some a, some b, some c, some d] => if a < 256 ∧ b < 256 ∧ c < 256 ∧ d < 256 then some (.v4 (ip4 a b c d)) else none
    | _ => none

def mixed : List Addr := [.v4 (ip4 127 0 0 1), .v6 (ip6 [0, 0, 0, 0, 0, 0xffff, 0xa00, 1]) [], .v4 (ip4 9 9 9 9)]

-- One name that was looked up and stored.
def lookedUp : Calls :=
  { shared :=
      { cache := (newCache 0 0 0).put 0 0 [] (lit "mx.test") [.v4 (ip4 9 9 9 9)] none, clock := 0
        stored := [⟨lit "mx.test", [.v4 (ip4 9 9 9 9)], none, 0⟩] }
    gone := [([⟨.get (lit "mx.test"), none⟩, ⟨.lookup (lit "ip4") (lit "mx.test"), .ok mixed⟩,
      ⟨.put (lit "mx.test") [.v4 (ip4 9 9 9 9)] none, ()⟩], some ([.v4 (ip4 9 9 9 9)], none))] }

end EmailVerifier.Resolver
