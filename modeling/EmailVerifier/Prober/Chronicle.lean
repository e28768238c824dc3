import EmailVerifier.Prober.Retention
import EmailVerifier.Prober.Screening
import EmailVerifier.Prober.Sittings

/-! Every result of a request is explained by its minutes.

A request holds one session after the other. Each result it returns is a suppression or
comes from the last session that had the address and did not hand it back; where no
address is named twice, what a session made of an address stays its result.
-/

set_option autoImplicit false

namespace EmailVerifier.Prober
open Text Data Semantics

def KeepsMinutes (W : World calls Minutes) : Prop := ∀ m e m', W m e m' → m' = m.next e

lemma KeepsMinutes.path {W : World calls Minutes} {m m' : Minutes} {tr : Trace calls} (keeps : KeepsMinutes W)
    (path : Path W m tr m') : m' = tr.foldl Minutes.next m := by
  refine path.traced (fun seen now => now = seen.foldl Minutes.next m) rfl ?_
  intro seen now e after same step
  rw [keeps now e after step, same, List.foldl_append]
  rfl

lemma Minutes.hear_eq (m : Minutes) (reply : Reply) : ∃ answers,
    m.hear reply = { m with sitting := { m.sitting with replied := true, answers := answers } } := by
  unfold Minutes.hear
  split
  · unfold Minutes.take
    split <;> exact ⟨_, rfl⟩
  · exact ⟨_, rfl⟩

lemma Minutes.next_past (m : Minutes) (e : Event calls) :
    (m.next e).past = m.past ∨ ∃ rest, (m.next e).past = m.past ++ [{ m.sitting with rest := rest }] := by
  obtain ⟨op, a⟩ := e
  cases op with
  | leave rest =>
    cases upset : m.upset with
    | true => exact .inl (congrArg Minutes.past (Minutes.leaves_upset upset))
    | false => exact .inr ⟨rest, congrArg Minutes.past (Minutes.leaves_even upset)⟩
  | readReply conn =>
    refine .inl ?_
    cases a with
    | error err => rfl
    | ok reply =>
      obtain ⟨answers, same⟩ := m.hear_eq reply
      have past := congrArg Minutes.past same
      exact past
  | acquire host domain => cases a <;> exact .inl rfl
  | write conn command => cases a <;> exact .inl rfl
  | handshake conn name timeout => cases a <;> exact .inl rfl
  | randRead => cases a <;> exact .inl rfl
  | _ => exact .inl rfl

/-- What every event keeps of the session under way holds of all that are in the minutes. -/
lemma KeepsMinutes.entries {W : World calls Minutes} {m : Minutes} {tr : Trace calls} (keeps : KeepsMinutes W)
    (fine : Sitting → Prop) (blank : fine {}) (handed : ∀ s rest, fine s → fine { s with rest := rest })
    (step : ∀ m e m', fine m.sitting → W m e m' → fine m'.sitting) (path : Path W {} tr m) : ∀ s ∈ m.past, fine s := by
  have both : fine m.sitting ∧ ∀ s ∈ m.past, fine s := by
    refine path.keeps (fun m => fine m.sitting ∧ ∀ s ∈ m.past, fine s) ⟨blank, by simp⟩ ?_
    rintro now e after ⟨here, entered⟩ moved
    refine ⟨step now e after here moved, ?_⟩
    rw [keeps now e after moved]
    rcases now.next_past e with same | ⟨rest, same⟩
    · rw [same]
      exact entered
    · rw [same]
      exact forall_mem_snoc.mpr ⟨entered, handed _ rest here⟩
  exact both.2

section
variable [Unicode]

/-- The last of these sessions to keep the address is where its result comes from. -/
structure ComesFrom (o : Options) (stop : Int) (past : List Sitting) (s : Sitting) (addr : Str) (r : Result) :
    Prop where
  held : addr ∈ s.addrs
  last : ∃ before after, past = before ++ s :: after ∧ ∀ t ∈ after, addr ∈ t.addrs → addr ∈ t.rest
  sourced : Sourced o stop s addr r

/-- What the minutes say of the results, with the addresses `left` ahead. -/
structure Chronicle (o : Options) (stop : Int) (req : Request) (left : List Str) (m : Minutes) (out : Results) :
    Prop where
  even : m.upset = false
  explained : ∀ addr r, out.lookup addr = some r →
    (∃ reason, r.SameAnswer (suppressedResult reason)) ∨ ∃ s, ComesFrom o stop m.past s addr r
  asked : ∀ s ∈ m.past, s.answers.map Heard.addr <+: s.addrs
  whole : ∀ s ∈ m.past, s.Stopped o stop → s.rest = []
  ahead : left ⊆ req.merged
  distinct : req.merged.Nodup → left.Nodup
  once : req.merged.Nodup → ∀ s ∈ m.past, s.addrs.Nodup
  kept : req.merged.Nodup → ∀ s ∈ m.past, ∀ addr ∈ s.addrs, addr ∉ s.rest →
    addr ∉ left ∧ ∃ r, out.lookup addr = some r ∧ Sourced o stop s addr r

variable {o : Options} {stop : Int} {req : Request} {A B : Type} {post : B → Minutes → Prop} {m m' : Minutes}
  {left later front : List Str} {out : Results} {groups : List SessionGroup} {exit : Exit} {addr : Str}
  {r base : Result} {s : Sitting}

lemma Sourced.same (sourced : Sourced o stop s addr base) (same : r.SameAnswer base) : Sourced o stop s addr r := by
  cases sourced with
  | first plain origin => exact .first plain (origin.same same)
  | rerun second origin answer => exact .rerun second origin (same.trans answer)

lemma Chronicle.drop (chronicle : Chronicle o stop req (front ++ left) m out) :
    Chronicle o stop req left m out where
  even := chronicle.even
  explained := chronicle.explained
  asked := chronicle.asked
  whole := chronicle.whole
  ahead := fun _ member => chronicle.ahead (List.mem_append_right _ member)
  distinct unique := List.Nodup.of_append_right (chronicle.distinct unique)
  once := chronicle.once
  kept unique s member addr inside own := by
    obtain ⟨behind, found⟩ := chronicle.kept unique s member addr inside own
    exact ⟨fun ahead => behind (List.mem_append_right _ ahead), found⟩

lemma Chronicle.stamped {results : Results} (chronicle : Chronicle o stop req left m out)
    (same : ∀ addr, Option.Rel Result.SameAnswer (results.lookup addr) (out.lookup addr)) :
    Chronicle o stop req left m results := by
  refine ⟨chronicle.even, ?_, chronicle.asked, chronicle.whole, chronicle.ahead, chronicle.distinct, chronicle.once, ?_⟩
  · intro addr r found
    have here := same addr
    rw [found] at here
    generalize looked : out.lookup addr = there at here
    cases here with
    | some answer =>
      rcases chronicle.explained addr _ looked with ⟨reason, suppressed⟩ | ⟨s, from_⟩
      · exact .inl ⟨reason, answer.trans suppressed⟩
      · exact .inr ⟨s, from_.held, from_.last, from_.sourced.same answer⟩
  · intro unique s member addr inside own
    obtain ⟨behind, base, looked, sourced⟩ := chronicle.kept unique s member addr inside own
    have here := same addr
    rw [looked] at here
    generalize found : results.lookup addr = there at here
    cases here with
    | some answer => exact ⟨behind, _, rfl, sourced.same answer⟩

lemma Chronicle.session (chronicle : Chronicle o stop req (groups.flatMap SessionGroup.addrs ++ later) m out)
    (entered : Entered o stop (Sourced o stop) groups m exit s m') :
    Chronicle o stop req (exit.rest ++ later) m' (Table.overlay exit.results out) := by
  have suffix : exit.rest <:+ groups.flatMap SessionGroup.addrs := by
    rw [← entered.rest, ← entered.addrs]
    exact entered.outcome.suffix
  have sublist : (exit.rest ++ later).Sublist (groups.flatMap SessionGroup.addrs ++ later) :=
    suffix.sublist.append (List.Sublist.refl later)
  have past : ∀ t ∈ m'.past, t ∈ m.past ∨ t = s := by
    intro t member
    rw [entered.past, List.mem_append, List.mem_singleton] at member
    exact member
  refine ⟨entered.even, ?_, ?_, ?_, fun _ member => chronicle.ahead (sublist.subset member),
    fun unique => (chronicle.distinct unique).sublist sublist, ?_, ?_⟩
  · intro addr r found
    rw [Table.lookup_overlay] at found
    cases new : exit.results.lookup addr with
    | some fresh =>
      rw [new] at found
      cases found
      refine .inr ⟨s, entered.outcome.within addr _ new, ⟨m.past, [], entered.past, by simp⟩,
        entered.outcome.explained addr _ new⟩
    | none =>
      rw [new] at found
      rcases chronicle.explained addr r found with suppressed | ⟨t, held, ⟨before, after, split, later⟩, sourced⟩
      · exact .inl suppressed
      · refine .inr ⟨t, held, ⟨before, after ++ [s], by rw [entered.past, split]; simp, ?_⟩, sourced⟩
        intro u member inside
        rcases List.mem_append.mp member with earlier | here
        · exact later u earlier inside
        · rw [List.mem_singleton.mp here] at inside ⊢
          refine (entered.outcome.covers addr inside).resolve_right ?_
          rw [new]
          simp
  · intro t member
    rcases past t member with earlier | rfl
    · exact chronicle.asked t earlier
    · exact entered.outcome.asked
  · intro t member stopped
    rcases past t member with earlier | rfl
    · exact chronicle.whole t earlier stopped
    · exact entered.outcome.whole stopped
  · intro unique t member
    rcases past t member with earlier | rfl
    · exact chronicle.once unique t earlier
    · rw [entered.addrs]
      exact List.Nodup.of_append_left (chronicle.distinct unique)
  · intro unique t member addr inside own
    rw [Table.lookup_overlay]
    rcases past t member with earlier | rfl
    · obtain ⟨behind, r, found, sourced⟩ := chronicle.kept unique t earlier addr inside own
      refine ⟨fun ahead => behind (sublist.subset ahead), r, ?_, sourced⟩
      cases new : exit.results.lookup addr with
      | none => exact found
      | some fresh =>
        have given := entered.outcome.within addr fresh new
        rw [entered.addrs] at given
        exact absurd (List.mem_append_left _ given) behind
    · have looked := (entered.outcome.covers addr inside).resolve_left own
      obtain ⟨r, found⟩ := Option.isSome_iff_exists.mp looked
      refine ⟨?_, r, by rw [found]; rfl, entered.outcome.explained addr r found⟩
      intro ahead
      rw [← entered.rest] at ahead
      rcases List.mem_append.mp ahead with back | later
      · exact own back
      · rw [entered.addrs] at inside
        exact List.disjoint_of_nodup_append (chronicle.distinct unique) inside later

lemma session_chronicled {sreq : Request} {grouped : Bool} {f : Exit → Act B} (limit : stop = o.policyStopFor sreq)
    (chronicle : Chronicle o stop req (groups.flatMap SessionGroup.addrs ++ later) m out)
    (rest : ∀ exit m', Chronicle o stop req (exit.rest ++ later) m' (Table.overlay exit.results out) →
      (f exit).Follows (sittings o stop) post m') :
    (session o sreq groups grouped >>= f).Follows (sittings o stop) post m := by
  refine (session_minuted limit chronicle.even).andThen ?_
  rintro exit m' ⟨s, entered⟩
  exact rest exit m' (chronicle.session entered)

lemma askChunks_chronicled {chunks : List (List Str)} {verdict : CatchAllVerdict} {settled : Bool}
    (limit : stop = o.policyStopFor req) (chronicle : Chronicle o stop req chunks.flatten m out) :
    (askChunks o req chunks out verdict settled).Follows (sittings o stop)
      (fun found m' => Chronicle o stop req [] m' found.1) m := by
  induction chunks generalizing m out verdict settled with
  | nil => exact chronicle
  | cons chunk more ih =>
    have given : Chronicle o stop req
        ([{ domain := req.domain, addrs := chunk, askCatchAll := req.needCatchAll && !settled }].flatMap
          SessionGroup.addrs ++ more.flatten) m out := by
      simpa using chronicle
    refine session_chronicled limit given fun exit m' held => ?_
    dsimp only
    split
    · exact ih held.drop
    · exact ih held.drop

lemma Chronicle.start {out : Results} (sublist : left.Sublist req.merged)
    (hits : ∀ a r, out.lookup a = some r → ∃ reason, r = suppressedResult reason) :
    Chronicle o stop req left {} out where
  even := rfl
  explained addr r found := by
    obtain ⟨reason, rfl⟩ := hits addr r found
    exact .inl ⟨reason, .rfl⟩
  asked := by simp
  whole := by simp
  ahead := sublist.subset
  distinct unique := unique.sublist sublist
  once := by simp
  kept := by simp

lemma unsuppressed_chronicled (req : Request) {emails : List Str} {f : List Str × Results → Act B}
    (rest : ∀ sifted, Screened (fun _ _ => True) (fun _ => True) emails ∅ sifted →
      (f sifted).Follows (sittings o stop) post m) :
    (unsuppressed o emails ∅ >>= f).Follows (sittings o stop) post m := by
  have screened : (unsuppressed o emails ∅).Ensures (bookkeeper o req)
      (fun sifted _ => Screened (fun _ _ => True) (fun _ => True) emails ∅ sifted) {} :=
    (unsuppressed_ensured (fun _ _ _ same => same) (bookkeeper_screens o req)).mono fun _ _ found => found.2
  refine (screened.aside unsuppressed_only fun op a quiet =>
    ⟨(Minutes.next_quiet quiet).symm, fun _ => quiet.unasking⟩).andThen ?_
  rintro sifted m' ⟨rfl, found⟩
  exact rest sifted found

lemma enqueue_enlisted (o : Options) (req : Request) : (enqueue o (mergeGroups req.domains) ∅).Ensures (bookkeeper o req)
    (fun found _ => Enlisted (fun _ _ => True) (fun _ => True) (mergeGroups req.domains) ∅ found) {} :=
  (enqueue_ensured (fun _ _ _ same => same) (bookkeeper_screens o req)).mono fun _ _ found => found.2

lemma probeSingle_chronicled (limit : stop = o.policyStopFor req) (single : req.domains = []) :
    (probeSingle o req).Follows (sittings o stop) (fun response m' => Chronicle o stop req [] m' response.results) {} := by
  have merged : req.merged = req.emails := by simp [Request.merged, single]
  refine unsuppressed_chronicled req fun sifted screened => ?_
  obtain ⟨emails, out⟩ := sifted
  have start : Chronicle o stop req emails {} out := by
    refine .start (merged ▸ screened.some_of) fun a r found => ?_
    obtain ⟨reason, -, same⟩ := (screened.out a r found).resolve_left (by simp)
    exact ⟨reason, same⟩
  dsimp only
  split
  · rename_i nobody
    exact quiet_minuted (recordAll_only _ _ _) fun _ => nobody ▸ start
  · refine quiet_minuted (knownRandomiser_only _ _) fun known => ?_
    have first : Chronicle o stop req (chunks emails o.maxRCPT).flatten {} out := by rwa [chunks_flatten]
    refine (askChunks_chronicled limit first).andThen fun found m' chronicle => ?_
    refine quiet_minuted (markNew_only _ _ _) fun _ => quiet_minuted (recordAll_only _ _ _) fun _ => ?_
    exact chronicle.stamped (stampAll_same _ _)

variable {d : Domains} {t : Tour}

section
variable (limit : stop = o.policyStopFor req)
include limit

lemma tourStep_chronicled {f : Tour → Act B} (some : t.queue ≠ [])
    (filled : ∀ g ∈ t.queue, g.addrs ≠ []) (chronicle : Chronicle o stop req (queued t.queue) m t.out)
    (rest : ∀ t' m', (∀ g ∈ t'.queue, g.addrs ≠ []) → Chronicle o stop req (queued t'.queue) m' t'.out →
      (f t').Follows (sittings o stop) post m') : (tourStep o req d t >>= f).Follows (sittings o stop) post m := by
  refine .bind (quiet_minuted (grouping_only _ _) fun family => ?_)
  have taken := takeSession_spec (family.2 && !t.refused) o.maxRCPT_pos some filled
  generalize takeSession t.queue o.maxRCPT (family.2 && !t.refused) = pair at taken ⊢
  obtain ⟨batch, left⟩ := pair
  have flat : (batch.map (d.asking t.verdicts)).flatMap SessionGroup.addrs = queued batch := List.flatMap_map ..
  have given : Chronicle o stop req ((batch.map (d.asking t.verdicts)).flatMap SessionGroup.addrs ++ queued left)
      m t.out := by
    rw [flat, taken.same]
    exact chronicle
  refine session_chronicled limit given fun exit m' held => rest _ m' ?_ ?_
  · intro g member
    rcases List.mem_append.mp member with back | later
    · exact ((regroup_spec d.domainOf exit.rest).2 g back).1
    · obtain ⟨whole, -, part⟩ := taken.left_parts g later
      exact part.some
  · rw [queued_append, (regroup_spec d.domainOf exit.rest).1]
    exact held

lemma tour_chronicled {fuel : Nat} (filled : ∀ g ∈ t.queue, g.addrs ≠ [])
    (chronicle : Chronicle o stop req (queued t.queue) m t.out) :
    (tour o req d fuel t).Follows (sittings o stop)
      (fun last m' => ∀ t', last = some t' → Chronicle o stop req [] m' t'.out) m := by
  have done (empty : t.queue = []) : ∀ t', some t = some t' → Chronicle o stop req [] m t'.out := by
    intro t' same
    cases same
    simpa [empty, queued] using chronicle
  induction fuel generalizing m t with
  | zero =>
    unfold tour
    split
    · rename_i empty
      exact done empty
    · intro t' same
      cases same
  | succ fuel ih =>
    unfold tour
    split
    · rename_i empty
      exact done empty
    · rename_i waiting
      refine tourStep_chronicled limit waiting filled chronicle fun t' m' filled' held => ih filled' held ?_
      intro empty t'' same
      cases same
      simpa [empty, queued] using held

lemma probeDomains_chronicled {fuel : Nat} (multi : req.domains ≠ []) :
    (probeDomains fuel o req).Follows (sittings o stop) (fun answer m' => ∀ response, answer = some (.ok response) →
      Chronicle o stop req [] m' response.results) {} := by
  have merged : req.merged = (mergeGroups req.domains).flatMap DomainGroup.emails := if_pos multi
  refine ((enqueue_enlisted o req).aside enqueue_only fun op a quiet =>
    ⟨(Minutes.next_quiet quiet).symm, fun _ => quiet.unasking⟩).andThen ?_
  rintro ⟨queue, out⟩ m' ⟨rfl, found⟩
  have start : Chronicle o stop req (queued queue) {} out := by
    refine .start (merged ▸ found.some_of) fun a r looked => ?_
    obtain ⟨reason, -, same⟩ := (found.out a r looked).resolve_left (by simp)
    exact ⟨reason, same⟩
  dsimp only
  split
  · rename_i nobody
    split
    · intro response answer
      cases answer
    · refine quiet_minuted (recordAll_only _ _ _) fun _ response answer => ?_
      cases answer
      simpa [nobody, queued] using start
  · refine quiet_minuted (knownRandomiser_only _ _) fun known => ?_
    have filled : ∀ g ∈ queue, g.addrs ≠ [] := fun g member => (found.parts g member).1
    refine (tour_chronicled (t := { queue := queue, out := out }) limit filled start).andThen fun last m' toured => ?_
    cases last with
    | none =>
      intro response answer
      cases answer
    | some t =>
      refine quiet_minuted (markNew_only _ _ _) fun _ => quiet_minuted (recordAll_only _ _ _) fun _ => ?_
      intro response answer
      cases answer
      exact (toured t rfl).stamped (stampDomains_same _ t)

lemma probe_chronicled {fuel : Nat} :
    (probe fuel o req).Follows (sittings o stop) (fun answer m' => ∀ response, answer = some (.ok response) →
      Chronicle o stop req [] m' response.results) {} := by
  unfold probe
  split
  · intro response answer
    cases answer
  · split
    · rename_i multi
      exact probeDomains_chronicled limit multi
    · rename_i single
      split
      · intro response answer
        cases answer
      · refine (probeSingle_chronicled limit (not_not.mp single)).andThen fun found m' chronicle response answer => ?_
        cases answer
        exact chronicle

end

/-- Every result of a request is explained by its minutes, and a session that is stopped
asks nothing more. -/
lemma Probe_chronicled (fuel : Nat) (o : Options) (req : Request) :
    (Probe fuel o req).Follows (sittings o (o.policyStopFor req)) (fun answer m' => ∀ response,
      answer = some (.ok response) → Chronicle o (o.policyStopFor req) req [] m' response.results) {} := by
  refine (probe_chronicled rfl).andThen fun answer m' chronicle => ?_
  split
  · rename_i response
    refine quiet_minuted (grouping_only _ _) fun family response' answer => ?_
    cases answer
    exact chronicle response rfl
  · exact chronicle

/-- In every run of a request, the minutes explain the results. -/
lemma Probe_minutes {W : World calls Minutes} {fuel : Nat} {tr : Trace calls} {response : Response}
    (keeps : KeepsMinutes W) (run : Runs W (Probe fuel o req) {} tr (.done (some (.ok response))) m) :
    Chronicle o (o.policyStopFor req) req [] m response.results := by
  obtain ⟨m', path, chronicle⟩ := (Probe_chronicled fuel o req).path run
  have noted : KeepsMinutes (sittings o (o.policyStopFor req)) := fun _ _ _ step => step.1
  rw [keeps.path run.path, ← noted.path path]
  exact chronicle response rfl

end

def anyoneMinuted : World calls Minutes := fun m e m' => m' = m.next e ∧ Readable e

lemma anyoneMinuted_watched {S : Type} {player : Player calls S} (readable : ∀ s op, Readable ⟨op, (player s op).1⟩)
    (s : S × Minutes) (op : Op) :
    anyoneMinuted s.2 ⟨op, (player.watched Minutes.next s op).1⟩ (player.watched Minutes.next s op).2.2 :=
  ⟨rfl, readable s.1 op⟩

def resultIn (addr : Str) : Option (Except Str Response) → Option Result
  | some (.ok response) => response.results.lookup addr
  | _ => none

lemma resultIn_some {addr : Str} {answer : Option (Except Str Response)} {r : Result}
    (found : resultIn addr answer = some r) :
    ∃ response, answer = some (.ok response) ∧ response.results.lookup addr = some r := by
  unfold resultIn at found
  split at found
  · exact ⟨_, rfl, found⟩
  · cases found

end EmailVerifier.Prober
