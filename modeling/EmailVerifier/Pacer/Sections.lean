import EmailVerifier.Pacer.Node

/-! What a section under the lock can do, said once: to the objects and to the map. -/

set_option autoImplicit false

namespace EmailVerifier.Pacer
open Text Data

structure MXState.SamePoint (st st' : MXState) : Prop where
  band : st'.band = st.band
  rate : st'.rate = st.rate
  conc : st'.conc = st.conc
  clean : st'.clean = st.clean

/-- What becomes of the objects, and what is noted of it: one of them moves aside, one more
is made, or an answer is taken into account. -/
inductive Touches (o : Options) (now : Time) (m : Memory) : Section → List MXState → List Observation → Prop where
  | none {sec : Section} : Touches o now m sec m.objects []
  | aside {sec : Section} {ref : Nat} {st st' : MXState} : m.objects[ref]? = some st → st.SamePoint st' →
      Touches o now m sec (m.objects.set ref st') []
  | made {key : Str} {band : Band} {start : ℚ} {pause : Option Time} : m.mx.lookup key = .none →
      Touches o now m (.install key band start) (m.objects ++ [loaded band start now pause]) []
  | observed {key : Str} {throttled : Bool} {ref : Nat} {st : MXState} : m.mx.lookup key = some ref →
      m.objects[ref]? = some st →
      Touches o now m (.observe key throttled) (m.objects.set ref (st.observe o.promote now throttled).1)
        [⟨ref, throttled, st.rate, (st.observe o.promote now throttled).1.rate⟩]

section
variable {o : Options} {now : Time} {got : Got} {m : Memory}

variable {ref : Nat} {key : Str}

lemma touches_aside {sec : Section} {f : MXState → MXState} (same : ∀ st : MXState, st.SamePoint (f st)) :
    Touches o now m sec ((m.objects[ref]?).elim m fun st => m.write ref (f st)).objects [] := by
  cases found : m.objects[ref]? with
  | none => exact .none
  | some st => exact .aside found (same st)

lemma forget_objects (m : Memory) (keys : List Str) : (keys.foldl Memory.forget m).objects = m.objects := by
  induction keys generalizing m with
  | nil => rfl
  | cons key keys ih => exact ih _

lemma shrink_objects (maxTracked : Int) (fuel : Nat) (m : Memory) :
    (Memory.shrink maxTracked fuel m).objects = m.objects := by
  induction fuel generalizing m with
  | zero => rfl
  | succ fuel ih =>
    unfold Memory.shrink
    split
    · split
      · rfl
      · exact ih _
    · rfl

lemma evictLocked_objects (m : Memory) (o : Options) (now : Time) : (m.evictLocked o now).objects = m.objects := by
  unfold Memory.evictLocked
  dsimp only
  rw [shrink_objects, forget_objects]

lemma run_touches (sec : Section) : Touches o now m sec (sec.run o now got m).2.objects (sec.observation o now m) := by
  cases sec with
  | find key =>
    simp only [Section.run]
    split
    · exact .none
    · exact touches_aside fun st => ⟨rfl, rfl, rfl, rfl⟩
  | install key band start =>
    simp only [Section.run]
    split
    · exact touches_aside fun st => ⟨rfl, rfl, rfl, rfl⟩
    · rename_i absent
      simp only [Memory.insert, evictLocked_objects]
      exact .made absent
  | budget ref | room ref | enter key | forget key => exact .none
  | leave key =>
    simp only [Section.run]
    split <;> exact .none
  | observe key throttled =>
    cases found : m.mx.lookup key with
    | none =>
      simp only [Section.run, Section.observation, found]
      exact .none
    | some ref =>
      cases here : m.objects[ref]? with
      | none =>
        simp only [Section.run, Section.observation, found, here]
        exact .none
      | some st =>
        simp only [Section.run, Section.observation, found, here]
        exact .observed found here
  | pauseKey key till | resumeKey key =>
    simp only [Section.run]
    cases m.mx.lookup key with
    | none => exact .none
    | some ref => exact touches_aside fun st => ⟨rfl, rfl, rfl, rfl⟩

lemma forget_lookup {key' : Str} (found : (m.forget key).mx.lookup key' = some ref) : m.mx.lookup key' = some ref := by
  by_cases same : key' = key
  · subst same
    rw [Memory.forget, AList.lookup_erase] at found
    cases found
  · rwa [Memory.forget, AList.lookup_erase_ne same] at found

lemma forgetAll_lookup {keys : List Str}
    (found : (keys.foldl Memory.forget m).mx.lookup key = some ref) : m.mx.lookup key = some ref := by
  induction keys generalizing m with
  | nil => exact found
  | cons first more ih => exact forget_lookup (ih found)

lemma shrink_lookup {maxTracked : Int} {fuel : Nat}
    (found : (Memory.shrink maxTracked fuel m).mx.lookup key = some ref) : m.mx.lookup key = some ref := by
  induction fuel generalizing m with
  | zero => exact found
  | succ fuel ih =>
    unfold Memory.shrink at found
    split at found
    · split at found
      · exact found
      · exact forget_lookup (ih found)
    · exact found

lemma evictLocked_lookup (found : (m.evictLocked o now).mx.lookup key = some ref) : m.mx.lookup key = some ref :=
  forgetAll_lookup (shrink_lookup found)

lemma elim_write_mx (m : Memory) (ref : Nat) (f : MXState → MXState) :
    ((m.objects[ref]?).elim m fun st => m.write ref (f st)).mx = m.mx := by
  cases m.objects[ref]? <;> rfl

lemma run_lookup {sec : Section} (found : (sec.run o now got m).2.mx.lookup key = some ref) :
    m.mx.lookup key = some ref ∨
      ∃ band start, sec = .install key band start ∧ m.mx.lookup key = none ∧ ref = m.objects.length ∧
        (sec.run o now got m).2.objects = m.objects ++ [loaded band start now (savedPause got)] := by
  cases sec with
  | find key' =>
    simp only [Section.run] at found
    split at found
    · exact .inl found
    · rw [elim_write_mx] at found
      exact .inl found
  | install key' band start =>
    simp only [Section.run] at found ⊢
    split at found
    · rw [elim_write_mx] at found
      exact .inl found
    · rename_i absent
      simp only [Memory.insert, evictLocked_objects] at found ⊢
      by_cases same : key = key'
      · subst same
        rw [AList.lookup_insert] at found
        exact .inr ⟨band, start, rfl, absent, (Option.some.inj found).symm, rfl⟩
      · rw [AList.lookup_insert_ne same] at found
        exact .inl (evictLocked_lookup found)
  | budget ref | room ref | enter key' => exact .inl found
  | leave key' =>
    simp only [Section.run] at found
    split at found <;> exact .inl found
  | observe key' throttled =>
    simp only [Section.run] at found
    split at found
    · exact .inl found
    · split at found <;> exact .inl found
  | pauseKey key' till | resumeKey key' =>
    simp only [Section.run] at found
    cases there : m.mx.lookup key' with
    | none =>
      rw [there] at found
      exact .inl found
    | some ref' =>
      rw [there, Option.elim_some, elim_write_mx] at found
      exact .inl found
  | forget key' => exact .inl (forget_lookup found)

end

lemma touches_length {o : Options} {now : Time} {m : Memory} {sec : Section} {objects : List MXState}
    {noted : List Observation} (touches : Touches o now m sec objects noted) :
    m.objects.length ≤ objects.length ∧ ∀ x ∈ noted, x.ref < m.objects.length := by
  cases touches with
  | none => exact ⟨le_refl _, nofun⟩
  | aside here same => exact ⟨(List.length_set ..).ge, nofun⟩
  | made absent => exact ⟨by simp, nofun⟩
  | observed tracked here =>
    refine ⟨(List.length_set ..).ge, fun x member => ?_⟩
    rw [List.mem_singleton.mp member]
    obtain ⟨bound, -⟩ := List.getElem?_eq_some_iff.mp here
    exact bound

lemma state_eq_some {m : Memory} {key : Str} {st : MXState} :
    m.state key = some st ↔ ∃ ref, m.mx.lookup key = some ref ∧ m.objects[ref]? = some st :=
  Option.bind_eq_some_iff

structure Memory.Placed (m : Memory) : Prop where
  refs : ∀ key ref, m.mx.lookup key = some ref → ref < m.objects.length
  apart : ∀ key key' ref, m.mx.lookup key = some ref → m.mx.lookup key' = some ref → key = key'

namespace Memory
variable {m : Memory}

lemma Placed.run (placed : m.Placed) (o : Options) (now : Time) (got : Got) (sec : Section) :
    (sec.run o now got m).2.Placed := by
  have touches : Touches o now m sec (sec.run o now got m).2.objects _ := run_touches sec
  obtain ⟨longer, -⟩ := touches_length touches
  constructor
  · intro key ref found
    rcases run_lookup found with before | ⟨band, start, -, -, rfl, objects⟩
    · exact (placed.refs key ref before).trans_le longer
    · rw [objects]
      simp
  · intro key key' ref found found'
    rcases run_lookup found with before | ⟨band, start, made, -, here, -⟩ <;>
      rcases run_lookup found' with before' | ⟨band', start', made', -, here', -⟩
    · exact placed.apart key key' ref before before'
    · exact absurd (placed.refs key ref before) (by omega)
    · exact absurd (placed.refs key' ref before') (by omega)
    · rw [made] at made'
      cases made'
      rfl

lemma Placed.forgetAll (placed : m.Placed) (keys : List Str) : (keys.foldl forget m).Placed := by
  constructor
  · intro key ref found
    rw [forget_objects]
    exact placed.refs key ref (forgetAll_lookup found)
  · intro key key' ref found found'
    exact placed.apart key key' ref (forgetAll_lookup found) (forgetAll_lookup found')

lemma state_write (placed : m.Placed) {key : Str} {ref : Nat} (tracked : m.mx.lookup key = some ref) (st : MXState)
    (key' : Str) : (m.write ref st).state key' = if key' = key then some st else m.state key' := by
  have bound := placed.refs key ref tracked
  unfold state write
  dsimp only
  split
  · rename_i same
    subst same
    rw [tracked]
    exact List.getElem?_set_self bound
  · rename_i other
    cases tracked' : m.mx.lookup key' with
    | none => rfl
    | some ref' =>
      have apart : ref ≠ ref' := fun same => other (placed.apart key' key ref' tracked' (same ▸ tracked))
      exact List.getElem?_set_ne apart

lemma forgetAll_state {keys : List Str} {key : Str} {st : MXState}
    (found : (keys.foldl forget m).state key = some st) : m.state key = some st := by
  obtain ⟨ref, tracked, here⟩ := state_eq_some.mp found
  exact state_eq_some.mpr ⟨ref, forgetAll_lookup tracked, forget_objects m keys ▸ here⟩

end Memory

section
variable {o : Options} {now : Time} {got : Got} {m : Memory} {key : Str}

lemma state_none (absent : m.mx.lookup key = none) : m.state key = none := by
  unfold Memory.state
  rw [absent]
  rfl

lemma find_tracks {ref : Nat} (found : (Section.run o now got m (.find key)).1 = some ref) :
    (Section.run o now got m (.find key)).2.mx.lookup key = some ref := by
  cases tracked : m.mx.lookup key with
  | none =>
    simp only [Section.run, tracked] at found
    cases found
  | some ref' =>
    simp only [Section.run, tracked] at found ⊢
    cases found
    rw [elim_write_mx]
    exact tracked

lemma install_tracks (o : Options) (now : Time) (got : Got) (m : Memory) (key : Str) (band : Band) (start : ℚ) :
    (Section.run o now got m (.install key band start)).2.mx.lookup key =
      some (Section.run o now got m (.install key band start)).1 := by
  cases tracked : m.mx.lookup key with
  | some ref =>
    simp only [Section.run, tracked]
    rw [elim_write_mx]
    exact tracked
  | none =>
    simp only [Section.run, tracked, Memory.insert]
    rw [AList.lookup_insert, evictLocked_objects]
    rfl

lemma placed_state {ref : Nat} (placed : m.Placed) (tracked : m.mx.lookup key = some ref) :
    ∃ st, m.objects[ref]? = some st ∧ m.state key = some st := by
  have here := List.getElem?_eq_getElem (placed.refs key ref tracked)
  exact ⟨_, here, state_eq_some.mpr ⟨ref, tracked, here⟩⟩

lemma write_entry (placed : m.Placed) (key : Str) (f : MXState → MXState) :
    ((m.mx.lookup key).elim m fun ref => (m.objects[ref]?).elim m fun st => m.write ref (f st)).state key =
      (m.state key).map f := by
  cases tracked : m.mx.lookup key with
  | none => rw [Option.elim_none, state_none tracked, Option.map_none]
  | some ref =>
    obtain ⟨st, here, found⟩ := placed_state placed tracked
    rw [Option.elim_some, here, Option.elim_some, Memory.state_write placed tracked, if_pos rfl, found, Option.map_some]

variable (o now got)
variable (placed : m.Placed)
include placed

lemma find_entry (key : Str) :
    (Section.run o now got m (.find key)).2.state key = (m.state key).map fun st => st.touch now := by
  rw [← write_entry placed]
  simp only [Section.run]
  cases m.mx.lookup key <;> rfl

lemma install_entry (key : Str) (band : Band) (start : ℚ) :
    (Section.run o now got m (.install key band start)).2.state key =
      some ((m.state key).elim (loaded band start now (savedPause got)) fun st => st.touch now) := by
  cases tracked : m.mx.lookup key with
  | none =>
    rw [state_none tracked, Option.elim_none]
    refine state_eq_some.mpr ⟨_, install_tracks o now got m key band start, ?_⟩
    simp only [Section.run, tracked, Memory.insert, evictLocked_objects]
    exact List.getElem?_concat_length
  | some ref =>
    obtain ⟨st, here, found⟩ := placed_state placed tracked
    have touched := write_entry placed key fun st => st.touch now
    rw [tracked, found] at touched
    simp only [Section.run, tracked]
    rw [found]
    exact touched

lemma observe_entry (key : Str) (throttled : Bool) :
    (Section.run o now got m (.observe key throttled)).1 =
      (m.state key).map (fun st => st.observe o.promote now throttled) ∧
    (Section.run o now got m (.observe key throttled)).2.state key =
      (m.state key).map fun st => (st.observe o.promote now throttled).1 := by
  cases tracked : m.mx.lookup key with
  | none =>
    simp only [Section.run, tracked, state_none tracked]
    exact ⟨rfl, rfl⟩
  | some ref =>
    obtain ⟨st, here, found⟩ := placed_state placed tracked
    simp only [Section.run, tracked, here, found]
    refine ⟨rfl, ?_⟩
    rw [Memory.state_write placed tracked, if_pos rfl]
    rfl

lemma observe_others {key key' : Str} (other : key' ≠ key) (throttled : Bool) :
    (Section.run o now got m (.observe key throttled)).2.state key' = m.state key' := by
  cases tracked : m.mx.lookup key with
  | none => simp only [Section.run, tracked]
  | some ref =>
    obtain ⟨st, here, -⟩ := placed_state placed tracked
    simp only [Section.run, tracked, here]
    rw [Memory.state_write placed tracked, if_neg other]

lemma pauseKey_entry (key : Str) (till : Time) :
    (Section.run o now got m (.pauseKey key till)).2.state key =
      (m.state key).map fun st => { st with pausedUntil := till, state := .paused } :=
  write_entry placed key fun st => { st with pausedUntil := till, state := .paused }

lemma resumeKey_entry (key : Str) :
    (Section.run o now got m (.resumeKey key)).2.state key =
      (m.state key).map fun st => { st with pausedUntil := Time.zero, state := .steady } :=
  write_entry placed key fun st => { st with pausedUntil := Time.zero, state := .steady }

end

end EmailVerifier.Pacer
