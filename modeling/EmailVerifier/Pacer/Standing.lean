import EmailVerifier.Pacer.Restart

/-! Where a key stands, whether it is in memory or not.

A key that is not tracked stands where the store would load it. Of a state only so much
counts as decisions can tell: the band, the rate and the concurrency, the clean answers
below the ceiling, and a pause that has not passed. An entry that is spent is one that the
store can stand in for.
-/

set_option autoImplicit false

namespace EmailVerifier.Data.Time

lemma ofUnix_whole (sec : Int) : (ofUnix sec).nanos % second = 0 := by
  unfold ofUnix wrapped second
  dsimp only
  omega

lemma whole_of_Unix {t u : Time} (whole : t.nanos % second = 0) (same : t.Unix = u.Unix) :
    t.nanos = u.nanos / second * second := by
  obtain ⟨low, high⟩ := t.fits
  obtain ⟨low', high'⟩ := u.fits
  unfold Unix wrap64 Int.bmod epoch at same
  unfold second at *
  dsimp only at same
  split at same <;> split at same <;> omega

end EmailVerifier.Data.Time

namespace EmailVerifier.Pacer
open Text Data Semantics

structure MXState.Matches (now : Time) (st st' : MXState) : Prop where
  band : st'.band = st.band
  rate : st'.rate = st.rate
  conc : st'.conc = st.conc
  clean : st'.clean = st.clean ∨ st.band.maxRate ≤ st.rate
  pause : st'.pausedUntil = st.pausedUntil ∨ st.pausedUntil.nanos ≤ now.nanos ∧ st'.pausedUntil.nanos ≤ now.nanos

/-- A state that the store can stand in for: at the concurrency keys are loaded with, no
clean answers that count, and a pause that is in whole seconds or has passed. -/
structure MXState.Spent (now : Time) (st : MXState) : Prop where
  conc : st.conc = st.band.minConc
  clean : st.clean = 0 ∨ st.band.maxRate ≤ st.rate
  pause : st.pausedUntil.nanos % second = 0 ∨ st.pausedUntil.nanos ≤ now.nanos

instance (now : Time) (st : MXState) : Decidable (st.Spent now) :=
  decidable_of_iff ((st.conc = st.band.minConc ∧ (st.clean = 0 ∨ st.band.maxRate ≤ st.rate)) ∧
      (st.pausedUntil.nanos % second = 0 ∨ st.pausedUntil.nanos ≤ now.nanos))
    ⟨fun ⟨⟨conc, clean⟩, pause⟩ => ⟨conc, clean, pause⟩, fun spent => ⟨⟨spent.conc, spent.clean⟩, spent.pause⟩⟩

namespace MXState
variable {now now' : Time} {st st' st'' : MXState}

lemma Matches.refl (now : Time) (st : MXState) : st.Matches now st := ⟨rfl, rfl, rfl, .inl rfl, .inl rfl⟩

lemma Matches.trans (first : st.Matches now st') (second : st'.Matches now st'') : st.Matches now st'' where
  band := second.band.trans first.band
  rate := second.rate.trans first.rate
  conc := second.conc.trans first.conc
  clean := by
    rcases first.clean with same | top
    · rw [← same, ← first.band, ← first.rate]
      exact second.clean
    · exact .inr top
  pause := by
    rcases first.pause with same | ⟨passed, passed'⟩ <;> rcases second.pause with same' | ⟨past, past'⟩
    · exact .inl (same'.trans same)
    · exact .inr ⟨same ▸ past, past'⟩
    · exact .inr ⟨passed, same' ▸ passed'⟩
    · exact .inr ⟨passed, past'⟩

lemma Matches.later (same : st.Matches now st') (later : now.nanos ≤ now'.nanos) : st.Matches now' st' :=
  ⟨same.band, same.rate, same.conc, same.clean, same.pause.imp id fun ⟨passed, passed'⟩ =>
    ⟨passed.trans later, passed'.trans later⟩⟩

lemma SamePoint.matches (same : st.SamePoint st') (pause : st'.pausedUntil = st.pausedUntil) (now : Time) :
    st.Matches now st' :=
  ⟨same.band, same.rate, same.conc, .inl same.clean, .inl pause⟩

variable (same : st.Matches now st')
include same

lemma Matches.before {t : Time} (later : now.nanos ≤ t.nanos) : t.Before st'.pausedUntil = t.Before st.pausedUntil := by
  rcases same.pause with equal | ⟨passed, passed'⟩
  · rw [equal]
  · unfold Time.Before
    rw [decide_eq_false (by omega), decide_eq_false (by omega)]

lemma Matches.throttle (t : Time) : (st.throttle t).1.Matches now (st'.throttle t).1 := by
  obtain ⟨band, rate, conc, -, pause⟩ := same
  simp only [MXState.throttle, band, rate, conc]
  split
  · exact ⟨rfl, rfl, rfl, .inl rfl, pause⟩
  · exact ⟨rfl, rfl, rfl, .inl rfl, .inl rfl⟩

lemma Matches.climb : st.climb.Matches now st'.climb := by
  obtain ⟨band, rate, conc, clean, pause⟩ := same
  rcases clean with equal | top
  · have climbs : st'.climbs = st.climbs := by simp only [MXState.climbs, band, rate, equal]
    simp only [MXState.climb, climbs, band, rate, conc, equal]
    split
    · exact ⟨rfl, rfl, rfl, .inl rfl, pause⟩
    · exact ⟨rfl, rfl, rfl, .inl rfl, pause⟩
  · -- At the ceiling nothing is earned, whatever the count.
    have still (st : MXState) (top : st.band.maxRate ≤ st.rate) : st.climbs = false := by
      simp [MXState.climbs, not_lt.mpr top]
    have top' : st'.band.maxRate ≤ st'.rate := by rw [band, rate]; exact top
    simp only [MXState.climb, still st top, still st' top', Bool.false_eq_true, if_false]
    exact ⟨band, rate, conc, .inr top, pause⟩

lemma Matches.observe (promote : Promotion) (t : Time) (throttled : Bool) :
    (st.observe promote t throttled).1.Matches now (st'.observe promote t throttled).1 := by
  have touched : (st.touch t).Matches now (st'.touch t) := ⟨same.band, same.rate, same.conc, same.clean, same.pause⟩
  cases throttled with
  | true => exact touched.throttle t
  | false =>
    have clean (st : MXState) : (st.touch t).climb.Matches now (st.observe promote t false).1 :=
      (st.observe_clean promote t).matches (by simp [MXState.observe]) now
    have back (st : MXState) : (st.observe promote t false).1.Matches now (st.touch t).climb := by
      obtain ⟨band, rate, conc, clean⟩ := st.observe_clean promote t
      exact ⟨band.symm, rate.symm, conc.symm, .inl clean.symm, .inl (by simp [MXState.observe])⟩
    exact ((back st).trans touched.climb).trans (clean st')

end MXState

section
variable [Codec]

def Node.reload (s : Node) (band : Band) (key : Str) : MXState :=
  loaded band (startRate band (rateIn (.ok (s.store (rateField key))))) Time.zero
    (savedPause (.ok (s.store (pauseField key))))

def Node.standing (s : Node) (bands : Str → Band) (key : Str) : MXState :=
  (s.memory.state key).getD (s.reload (bands key) key)

/-- The rate and the pause of a state are what the store has of the key. -/
structure Saved (band : Band) (key : Str) (s : Node) (st : MXState) : Prop where
  rate : startRate band (rateIn (.ok (s.store (rateField key)))) = st.rate
  pause : st.pausedUntil.Unix = s.saved key

variable {band : Band} {key : Str} {s s' : Node} {st st' : MXState} {now : Time}

omit [Codec] in
lemma savedPause_whole (got : Got) : ((savedPause got).getD Time.zero).nanos % second = 0 := by
  unfold savedPause
  split
  · rename_i raw
    cases parseInt raw with
    | none => rfl
    | some sec => exact Time.ofUnix_whole sec
  · rfl

lemma MXState.Spent.reload (spent : st.Spent now) (fixed : st.band = band) (saved : Saved band key s st) :
    st.Matches now (s.reload band key) := by
  obtain ⟨point, rate⟩ := loaded_point band (startRate band (rateIn (.ok (s.store (rateField key))))) Time.zero
    (savedPause (.ok (s.store (pauseField key))))
  have fresh := loaded_samePoint band (startRate band (rateIn (.ok (s.store (rateField key))))) Time.zero
    (savedPause (.ok (s.store (pauseField key))))
  have whole := savedPause_whole (.ok (s.store (pauseField key)))
  have floor := Time.whole_of_Unix whole saved.pause.symm
  refine ⟨point.trans fixed.symm, rate.trans saved.rate, ?_, ?_, ?_⟩
  · rw [spent.conc, fixed]
    exact fresh.conc
  · rcases spent.clean with none | top
    · rw [none]
      exact .inl fresh.clean
    · exact .inr top
  · unfold Node.reload
    rw [loaded_pausedUntil]
    rcases spent.pause with even | passed
    · left
      have same : ((savedPause (.ok (s.store (pauseField key)))).getD Time.zero).nanos = st.pausedUntil.nanos := by
        rw [floor]
        unfold second at *
        omega
      generalize (savedPause (.ok (s.store (pauseField key)))).getD Time.zero = till at same
      obtain ⟨nanos, fits⟩ := till
      subst same
      rfl
    · right
      refine ⟨passed, ?_⟩
      rw [floor]
      unfold second at *
      omega

end

/-! ## The fields of different keys

A field has no colon in it, so the last colon of its name ends the key. -/

lemma last_inj {before before' after after' : Str} {sep : UInt8}
    (same : before ++ sep :: after = before' ++ sep :: after') (none : sep ∉ after) (none' : sep ∉ after') :
    before = before' ∧ after = after' := by
  rcases List.append_eq_append_iff.mp same with ⟨mid, rfl, rest⟩ | ⟨mid, rfl, rest⟩
  · cases mid with
    | nil => exact ⟨(List.append_nil _).symm, (List.cons.inj rest).2⟩
    | cons x more =>
      have inside : sep ∈ after := by
        rw [(List.cons.inj rest).2]
        simp
      exact absurd inside none
  · cases mid with
    | nil => exact ⟨List.append_nil _, (List.cons.inj rest).2.symm⟩
    | cons x more =>
      have inside : sep ∈ after' := by
        rw [(List.cons.inj rest).2]
        simp
      exact absurd inside none'

lemma runtimeKey_apart {key key' : Str} {field field' : String} (other : key' ≠ key) (plain : 58 ∉ lit field)
    (plain' : 58 ∉ lit field') : runtimeKey key' field' ≠ runtimeKey key field := by
  intro same
  have colon (key : Str) (field : String) : runtimeKey key field = (lit "rt:mx:" ++ key) ++ 58 :: lit field := by
    rw [runtimeKey, List.append_assoc, show lit ":" = [58] by decide, List.singleton_append]
  rw [colon, colon] at same
  exact other (List.append_cancel_left (last_inj same plain' plain).1)

lemma writes_elsewhere [Codec] {key key' : Str} {st : MXState} {field : String} (other : key' ≠ key)
    (plain : 58 ∉ lit field) : ∀ w ∈ writes key st, runtimeKey key' field ≠ w.1 := by
  intro w member
  unfold writes at member
  split at member
  all_goals
    simp only [List.append_nil, List.cons_append, List.nil_append, List.mem_cons, List.not_mem_nil, or_false] at member
    rcases member with rfl | rfl | rfl | rfl
    all_goals exact runtimeKey_apart other (by decide) plain

end EmailVerifier.Pacer
