import EmailVerifier.Prober.Rounds

/-! What a request keeps of the answers it gets.

An answer about an address stays its result for as long as nothing asks about the same
address again, and a session asks about each of the addresses it is given once. A domain
with an accepted address has its catch-all verdict, unless the books show why not.
-/

set_option autoImplicit false

namespace EmailVerifier.Prober
open Text Data Semantics

lemma Result.SameAnswer.accepted {r base : Result} (same : r.SameAnswer base) : r.accepted = base.accepted := by
  rw [same]

def bookkeeper [Unicode] (o : Options) (req : Request) : World calls Ledger :=
  World.noting (Ledger.next o (o.policyStopFor req))

lemma bookkeeper_screens [Unicode] (o : Options) (req : Request) :
    Screens o (bookkeeper o req) (fun _ _ => True) (fun _ => True) :=
  ⟨by simp, by simp, by simp, by simp, by simp⟩

lemma Ledger.Smooth.prior {l l' : Ledger} (smooth : l'.Smooth) (grown : l.mishaps <+: l'.mishaps) : l.Smooth :=
  ⟨fun member => smooth.granted (grown.subset member), fun member => smooth.unstopped (grown.subset member),
    fun member => smooth.whole (grown.subset member)⟩

lemma resettle_isSome {settled : Findings} {verdicts : Verdicts} {domain : Str} (before : (settled domain).isSome = true) :
    (resettle verdicts settled domain).isSome = true := by
  unfold resettle
  split
  · split
    · rfl
    · exact before
  · exact before

section
variable [Unicode] {o : Options} {req : Request} {l l' : Ledger} {groups : List SessionGroup} {exit : Exit}
  {out : Results} {left later : List Str} {settled : Findings} {addr : Str}

variable {S : Type} {fuel : Nat} {tr : Trace calls} {done : List Heard} {response : Response}

/-- What is upheld by every session holds of the books and the answer of every run. -/
lemma Probe_upholds {W : World calls S} {s t : S} {inv : List Str → Ledger → Results → Findings → Prop}
    (upheld : Upheld o req (fun _ _ => True) (fun _ => True) (fun _ => True) inv)
    (run : Runs W (Probe fuel o req) s tr (.done (some (.ok response))) t) :
    ∃ out settled, Upholds req inv (booksOf o req tr) response.results out settled := by
  exact (Probe_ensured (W := bookkeeper o req) (fun _ _ _ noted => noted) (fun _ _ _ _ _ => trivial)
    upheld (bookkeeper_screens o req) trivial).result (run.noting (Ledger.next o (o.policyStopFor req)) {}) response rfl

lemma Request.needs_listed {domain : Str} (multi : req.domains ≠ []) (needed : req.needs domain = true) :
    ∃ g ∈ req.domains, g.domain = domain := by
  rw [Request.needs, if_pos multi] at needed
  cases looked : (needsOf (mergeGroups req.domains)).lookup domain with
  | none =>
    rw [looked] at needed
    cases needed
  | some need =>
    obtain ⟨merged, member, rfl, -⟩ := (needsOf_from _ _ looked).resolve_right (by simp)
    exact mergeGroups_domain member

/-- Every answer about the address is its result, and it will not be asked again. -/
structure Keeps (o : Options) (addr : Str) (left : List Str) (l : Ledger) (out : Results) : Prop where
  once : left.count addr ≤ 1
  kept : ∀ h ∈ l.heard, h.addr = addr → h.limit = false →
    addr ∉ left ∧ ∃ r, out.lookup addr = some r ∧ r.SameAnswer (h.result o)

lemma booked_once {h : Heard} (once : (done.map Heard.addr).count h.addr ≤ 1)
    (member : h ∈ done) : (booked o done).lookup h.addr = some (h.result o) := by
  obtain ⟨before, after, rfl⟩ := List.append_of_mem member
  have other : h.addr ∉ after.map Heard.addr := by
    intro again
    have again := List.count_pos_iff.mpr again
    rw [List.map_append, List.map_cons, List.count_append, List.count_cons_self] at once
    omega
  rw [List.append_cons, booked_other other, booked_snoc, Table.lookup_insert_ite, if_pos rfl]

lemma booked_absent (absent : addr ∉ done.map Heard.addr) : (booked o done).lookup addr = none := by
  cases found : (booked o done).lookup addr with
  | none => rfl
  | some r =>
    obtain ⟨h, member, rfl, -⟩ := booked_from found
    exact absurd (List.mem_map_of_mem member) absent

lemma Recorded.lookup_none {lost : List Str} {results : Results}
    (recorded : Recorded o done lost results) (unlost : addr ∉ lost) (absent : addr ∉ done.map Heard.addr) :
    results.lookup addr = none := by
  have kept := recorded.kept addr unlost
  rw [booked_absent absent] at kept
  cases found : results.lookup addr with
  | none => rfl
  | some r =>
    rw [found] at kept
    cases kept

lemma Recorded.lookup_some {lost : List Str} {results : Results} {r : Result}
    (recorded : Recorded o done lost results) (unlost : addr ∉ lost) (found : (Prober.booked o done).lookup addr = some r) :
    ∃ r', results.lookup addr = some r' ∧ r'.SameAnswer r := by
  have kept := recorded.kept addr unlost
  rw [found] at kept
  cases looked : results.lookup addr with
  | none =>
    rw [looked] at kept
    cases kept
  | some r' =>
    rw [looked] at kept
    cases kept with
    | some same => exact ⟨r', rfl, same⟩

lemma Keeps.session (keeps : Keeps o addr (groups.flatMap SessionGroup.addrs ++ later) l out)
    (account : Account o groups l l' exit) : Keeps o addr (exit.rest ++ later) l' (Table.overlay exit.results out) := by
  obtain ⟨more, again, lost, tally⟩ := account.tally
  have once := keeps.once
  rw [tally.same, List.count_append, List.count_append, List.count_append] at once
  have recorded : Recorded o more lost exit.results := by simpa using tally.recorded
  refine ⟨by rw [List.count_append]; omega, fun h member named taken => ?_⟩
  rw [tally.heard, List.nil_append, List.mem_append, List.mem_append] at member
  rcases member with old | answered | vain
  · -- It was answered in an earlier session, so this one was not given the address.
    obtain ⟨gone, r, found, same⟩ := keeps.kept h old named taken
    rw [tally.same, List.mem_append, List.mem_append, List.mem_append, not_or, not_or, not_or] at gone
    refine ⟨by simp [gone], r, ?_, same⟩
    rw [Table.lookup_overlay, recorded.lookup_none gone.1.2.1 gone.1.1, Option.none_or, found]
  · -- It was answered now, the one time it could be.
    have asked : 0 < (more.map Heard.addr).count addr :=
      List.count_pos_iff.mpr (named ▸ List.mem_map_of_mem answered)
    have unlost : addr ∉ lost := List.count_eq_zero.mp (by omega)
    have alone : (more.map Heard.addr).count h.addr ≤ 1 := by
      rw [named]
      omega
    have looked := booked_once (o := o) alone answered
    rw [named] at looked
    obtain ⟨r, found, same⟩ := recorded.lookup_some unlost looked
    refine ⟨List.count_eq_zero.mp (by rw [List.count_append]; omega), r, ?_, same⟩
    rw [Table.lookup_overlay, found, Option.some_or]
  · rw [(tally.vain h vain).1] at taken
    cases taken

lemma keeps_upheld (once : req.merged.count addr ≤ 1) :
    Upheld o req (fun _ _ => True) (fun _ => True) (fun _ => True) (fun left l out _ => Keeps o addr left l out) where
  start left out settled within _ _ _ := by
    refine ⟨(within.count_le addr).trans once, fun h member => ?_⟩
    cases member
  session groups later l l' out settled exit keeps _ account _ := keeps.session account
  drop front left l out settled keeps := by
    refine ⟨?_, fun h member named taken => ?_⟩
    · have once := keeps.once
      rw [List.count_append] at once
      omega
    · obtain ⟨gone, kept⟩ := keeps.kept h member named taken
      exact ⟨fun inside => gone (List.mem_append_right front inside), kept⟩

/-- The answer about an address asked once is the result returned for it. -/
lemma Probe_keeps {W : World calls S} {s t : S} {h : Heard} (once : req.merged.count h.addr ≤ 1)
    (run : Runs W (Probe fuel o req) s tr (.done (some (.ok response))) t)
    (heard : h ∈ (booksOf o req tr).heard) (taken : h.limit = false) :
    ∃ r, response.results.lookup h.addr = some r ∧ r.SameAnswer (h.result o) := by
  obtain ⟨out, settled, upholds⟩ := Probe_upholds (keeps_upheld once) run
  obtain ⟨-, r, found, same⟩ := upholds.kept.kept h heard rfl taken
  have carried := upholds.same h.addr
  rw [found] at carried
  cases looked : response.results.lookup h.addr with
  | none =>
    rw [looked] at carried
    cases carried
  | some r' =>
    rw [looked] at carried
    cases carried with
    | some same' => exact ⟨r', rfl, same'.trans same⟩

/-- As long as nothing comes in between, every domain that is to be asked and had an
address accepted has its verdict. -/
structure Settles (req : Request) (out : Results) (settled : Findings) : Prop where
  telling : ∀ domain v, settled domain = some v → v.catchAll.isSome = true
  questioned : ∀ a, ValidIn out a → req.needs (req.domainOf a) = true → req.domainOf a ≠ [] →
    (settled (req.domainOf a)).isSome = true

lemma Settles.session (settles : Settles req out settled) (round : Round req settled groups)
    (account : Account o groups l l' exit) (smooth : l'.Smooth) :
    Settles req (Table.overlay exit.results out) (resettle exit.verdicts settled) := by
  constructor
  · intro domain v found
    unfold resettle at found
    split at found
    · rename_i w new
      split at found
      · rename_i decided
        cases found
        exact account.sound domain _ new decided
      · exact settles.telling domain v found
    · exact settles.telling domain v found
  · rintro a ⟨r, found, valid⟩ needed named
    rw [Table.lookup_overlay] at found
    cases here : exit.results.lookup a with
    | none =>
      rw [here, Option.none_or] at found
      exact resettle_isSome (settles.questioned a ⟨r, found, valid⟩ needed named)
    | some r' =>
      rw [here, Option.some_or] at found
      cases found
      obtain ⟨more, again, lost, tally⟩ := account.tally
      obtain ⟨_, looked, -⟩ := tally.recorded.validIn ⟨r, here, valid⟩
      obtain ⟨h, member, rfl, -⟩ := booked_from looked
      have given : h.addr ∈ groups.flatMap SessionGroup.addrs := by
        rw [tally.same]
        exact List.mem_append_left _ (List.mem_map_of_mem (by simpa using member))
      obtain ⟨g, inside, owns⟩ := List.mem_flatMap.mp given
      have own := round.owned g inside h.addr owns
      rw [own] at needed named ⊢
      cases pending : settled g.domain with
      | some v => exact resettle_isSome (by rw [pending]; rfl)
      | none =>
        -- Nobody had settled it, so this session was to ask.
        have asks : g.askCatchAll = true := by rw [round.wanted g inside, needed, pending]; rfl
        obtain ⟨v, reached, told⟩ := account.asked g inside asks named smooth ⟨h.addr, owns, r, here, valid⟩
        have decided : v.decided = true := by rw [CatchAllVerdict.decided, told, Bool.true_or]
        rw [resettle, reached]
        simp [decided]

lemma settles_upheld : Upheld o req (fun _ _ => True) (fun _ => True) (fun _ => True)
    (fun _ l out settled => l.Smooth → Settles req out settled) where
  start left out settled _ _ hits known _ := by
    refine ⟨fun domain v found => by rw [known domain v found]; rfl, ?_⟩
    rintro a ⟨r, found, valid⟩
    obtain ⟨reason, -, rfl⟩ := hits a r found
    cases valid
  session groups later l l' out settled exit settles round account _ smooth :=
    (settles (smooth.prior account.grown)).session round account smooth
  drop front left l out settled settles := settles

/-- In a run without a mishap every address accepted at a domain that is to be asked has
the answer to the catch-all question. -/
lemma Probe_settles {W : World calls S} {s t : S}
    {r : Result} (run : Runs W (Probe fuel o req) s tr (.done (some (.ok response))) t)
    (smooth : (booksOf o req tr).Smooth) (found : response.results.lookup addr = some r) (valid : r.cls = .valid)
    (needed : req.needs (req.domainOf addr) = true) (named : req.domainOf addr ≠ []) : r.catchAll.isSome = true := by
  obtain ⟨out, settled, upholds⟩ := Probe_upholds settles_upheld run
  have settles := upholds.kept smooth
  have carried := upholds.same addr
  rw [found] at carried
  cases looked : out.lookup addr with
  | none =>
    rw [looked] at carried
    cases carried
  | some base =>
    rw [looked] at carried
    cases carried with
    | some same =>
      have reached := settles.questioned addr ⟨base, looked, same.cls ▸ valid⟩ needed named
      rcases upholds.stamped addr r found with ⟨domain, v, source, told⟩ | pending
      · rw [told]
        exact settles.telling domain v source
      · rw [pending] at reached
        cases reached

end

end EmailVerifier.Prober
