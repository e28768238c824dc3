import EmailVerifier.Prober.ProbeConduct
import EmailVerifier.Prober.Surroundings

/-! Every request ends, with a result for each of its addresses and no others.

What a trace shows of sessions and questions is read off its operations alone; the
protocol's state says the same along every path.
-/

set_option autoImplicit false

namespace EmailVerifier.Prober
open Text Data Semantics

def rcptBy : Op → List Str
  | .write _ (.rcpt addr) => [addr]
  | _ => []

/-- One for the end of a session that refused grouping with addresses left over. -/
def refusalBy : Op → Nat
  | .leave rest => if rest = [] then 0 else 1
  | _ => 0

def sizeBy : Op → List Nat
  | .enter groups _ => [(groups.flatMap SessionGroup.addrs).length]
  | _ => []

def rcptsIn (tr : Trace calls) : List Str := tr.flatMap fun e => rcptBy e.op

def refusalsIn (tr : Trace calls) : Nat := (tr.map fun e => refusalBy e.op).sum

def sessionSizes (tr : Trace calls) : List Nat := tr.flatMap fun e => sizeBy e.op

@[simp] lemma Watch.wrote_sent (w : Watch) (command : Command) (a : Except Failure Unit) :
    (w.wrote command a).sent = w.sent := by
  cases a <;> rfl

@[simp] lemma Watch.wrote_refusals (w : Watch) (command : Command) (a : Except Failure Unit) :
    (w.wrote command a).refusals = w.refusals := by
  cases a <;> rfl

@[simp] lemma Watch.hear_sent (w : Watch) (command : Option Command) (a : Except Failure Reply) :
    (w.hear command a).sent = w.sent := by
  cases a <;> rfl

@[simp] lemma Watch.hear_refusals (w : Watch) (command : Option Command) (a : Except Failure Reply) :
    (w.hear command a).refusals = w.refusals := by
  cases a <;> rfl

lemma Aside.rcptBy {o : Op} (aside : Aside o) : rcptBy o = [] := by
  cases o <;> first | rfl | cases aside

lemma Aside.refusalBy {o : Op} (aside : Aside o) : refusalBy o = 0 := by
  cases o <;> first | rfl | cases aside

lemma Aside.sizeBy {o : Op} (aside : Aside o) : sizeBy o = [] := by
  cases o <;> first | rfl | cases aside

variable {c : Scope} {w w' : Watch} {e : Event calls} {tr : Trace calls}

lemma Step.sent (step : Step c w e w') : w'.sent = w.sent ++ rcptBy e.op := by
  cases step with
  | aside aside => rw [aside.rcptBy, List.append_nil]
  | write _ sends => cases sends <;> simp [rcptBy]
  | bye _ _ farewell => rcases farewell with rfl | rfl <;> simp [rcptBy]
  | _ => simp [rcptBy]

lemma Step.refusals (step : Step c w e w') : w'.refusals = w.refusals + refusalBy e.op := by
  cases step with
  | aside aside => rw [aside.refusalBy, Nat.add_zero]
  | write _ sends => cases sends <;> simp [refusalBy]
  | leave _ _ _ _ =>
    simp only [refusalBy]
    split <;> omega
  | _ => simp [refusalBy]

lemma Step.few (step : Step c w e w') : ∀ n ∈ sizeBy e.op, n ≤ c.maxRCPT := by
  cases step with
  | enter _ may =>
    intro n member
    exact List.mem_singleton.mp member ▸ may.few
  | aside aside => simp [aside.sizeBy]
  | _ => simp [sizeBy]

lemma rcptsIn_eq (path : Path (Step c) {} tr w) : rcptsIn tr = w.sent := by
  refine path.traced (fun seen w => rcptsIn seen = w.sent) rfl fun seen w e w' same step => ?_
  rw [step.sent, ← same]
  simp [rcptsIn]

lemma refusalsIn_eq (path : Path (Step c) {} tr w) : refusalsIn tr = w.refusals := by
  refine path.traced (fun seen w => refusalsIn seen = w.refusals) rfl fun seen w e w' same step => ?_
  rw [step.refusals, ← same]
  simp [refusalsIn]

lemma sessionSizes_le (path : Path (Step c) {} tr w) : ∀ n ∈ sessionSizes tr, n ≤ c.maxRCPT := by
  refine path.traced (fun seen _ => ∀ n ∈ sessionSizes seen, n ≤ c.maxRCPT) (by simp [sessionSizes])
    fun seen w e w' few step n member => ?_
  rw [sessionSizes, List.flatMap_append, List.mem_append] at member
  rcases member with old | new
  · exact few n old
  · exact step.few n (by simpa using new)

lemma repeats_at_most_one {sent again once : List Str} (perm : sent.Perm (again ++ once))
    (few : again.length ≤ 1) (distinct : once.Nodup) {a b : Str} (twice : 1 < sent.count a)
    (twice' : 1 < sent.count b) : a = b := by
  have extra : ∀ x, 1 < sent.count x → x ∈ again := by
    intro x many
    rw [perm.count_eq, List.count_append] at many
    have := List.nodup_iff_count_le_one.mp distinct x
    exact List.count_pos_iff.mp (by omega)
  match again, few, extra with
  | [], _, extra => exact absurd (extra a twice) List.not_mem_nil
  | [x], _, extra => rw [List.mem_singleton.mp (extra a twice), List.mem_singleton.mp (extra b twice')]

/-- Given as much fuel as there are addresses, a request ends with a response about
exactly its addresses, in sessions no larger than the limit. Of distinct addresses at
most one is asked twice, and at most one session hands addresses back. -/
theorem Probe_complete [Unicode] {S : Type} {W : World calls S} {s t : S} {fuel : Nat} {o : Options}
    {req : Request} {tr : Trace calls} {found : Option (Except Str Response)} (host : req.mxHost ≠ [])
    (asked : req.addrs ≠ []) (limit : 1 ≤ o.maxRCPTPerSession) (enough : req.addrs.length ≤ fuel)
    (run : Runs W (Probe fuel o req) s tr (.done found) t) :
    ∃ response, found = some (.ok response) ∧
      (∀ addr, addr ∈ response.results ↔ addr ∈ req.addrs) ∧
      (∀ n ∈ sessionSizes tr, (n : Int) ≤ o.maxRCPTPerSession) ∧
      (req.addrs.Nodup → refusalsIn tr ≤ 1 ∧
        ∀ a b, 1 < (rcptsIn tr).count a → 1 < (rcptsIn tr).count b → a = b) := by
  obtain ⟨response, rfl⟩ := Probe_answers host asked enough run
  obtain ⟨w, path, finished⟩ := (Probe_follows fuel o req).path run
  have probed := Finished.probed finished response rfl
  refine ⟨response, rfl, fun addr => ?_, fun n member => ?_, fun distinct => ⟨?_, fun a b => ?_⟩⟩
  · rw [← probed.keys addr, AList.lookup_isSome]
  · have few : n ≤ o.maxRCPT := sessionSizes_le path n member
    rw [Options.maxRCPT, if_pos (by omega)] at few
    omega
  · rw [refusalsIn_eq path]
    exact probed.refusals
  · obtain ⟨again, once, perm, few, single⟩ := probed.sent distinct
    rw [rcptsIn_eq path]
    exact repeats_at_most_one perm few single

def threeDomains : Request where
  mxHost := lit "mx"
  domains := [⟨lit "c", [lit "a@c", lit "s@c"], false⟩, ⟨lit "d", [lit "x@d"], false⟩, ⟨lit "e", [lit "y@e"], false⟩]

def cramped : Options where
  maxRCPTPerSession := 2
  multiDomain := some fun host => (host, true)
  suppress := true

def oneDomain : Reply where
  code := 452
  text := lit "452 4.3.0"

-- `x@d` is refused after `a@c`, as of one domain too many.
def oneByOne (sent : List Command) : Reply :=
  if sent.getLast? = some (.rcpt (lit "x@d")) ∧ .rcpt (lit "a@c") ∈ sent then oneDomain else hospitable sent

def sifting : Player calls (List Command) := fun sent o => match o with
  | .enforcing => (true, sent)
  | .suppressed email => (.ok (email = lit "s@c", []), sent)
  | o => replying oneByOne sent o

lemma sifting_readable (sent : List Command) (o : Op) : Readable ⟨o, (sifting sent o).1⟩ := by
  cases o with
  | readReply conn =>
    change (oneByOne sent).Formed
    unfold oneByOne
    split
    · exact ⟨lit "452 4.3.0\r\n", [], by decide⟩
    · exact hospitable_formed sent
  | _ => trivial

/-- A request that is split over sessions, one of which hands an address back, with an address
that is on the list. -/
theorem threeDomains_complete : ∃ tr response,
    Runs anyone (Probe 4 cramped threeDomains) () tr (.done (some (.ok response))) () ∧
    sessionSizes tr = [2, 1, 1] ∧ rcptsIn tr = [lit "a@c", lit "x@d", lit "x@d", lit "y@e"] ∧
    (∀ addr, addr ∈ response.results ↔ addr ∈ threeDomains.addrs) ∧ refusalsIn tr ≤ 1 := by
  have run := play_anyone sifting_readable (Probe 4 cramped threeDomains) []
  obtain ⟨response, ended, keys, -, few⟩ :=
    Probe_complete (by decide) (by decide) (by decide) (by decide) run
  exact ⟨_, response, ended ▸ run, by decide +kernel, by decide +kernel, keys, (few (by decide)).1⟩

end EmailVerifier.Prober
