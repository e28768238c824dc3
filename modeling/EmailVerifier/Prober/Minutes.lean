import EmailVerifier.Prober.Booking

/-! The minutes of a request: one entry for each session it held.

An entry says whom the session was given, whether it repeats in plaintext one whose
upgrade failed, which replies it took as answers, what broke off, and what it handed
back. A result is explained by the entry of the session it comes from: it is an answer,
the stop for policy replies, or the reason the session gave up.
-/

set_option autoImplicit false

namespace EmailVerifier.Prober
open Text Data Semantics

def isBogus : Command → Bool
  | .bogus _ => true
  | _ => false

/-- Questions about a recipient, real or not, and the tokens they cost. -/
def Op.asks : Op → Bool
  | .acquire _ _ => true
  | .write _ (.rcpt _) => true
  | .write _ (.bogus _) => true
  | _ => false

structure Sitting where
  addrs : List Str := []
  /-- It repeats in plaintext a session whose upgrade failed. -/
  rerun : Bool := false
  /-- A reply was read. -/
  replied : Bool := false
  /-- After that, a command could not be written or its reply not be read. -/
  severed : Bool := false
  /-- A token was refused between two recipients. -/
  late : Bool := false
  /-- The replies taken as answers about an address. -/
  answers : List Heard := []
  rest : List Str := []
  deriving DecidableEq, Repr

structure Minutes extends Dialogue where
  sitting : Sitting := {}
  /-- The exchange of STARTTLS or the handshake failed: a rerun is to follow. -/
  upset : Bool := false
  /-- A random name was drawn just now. -/
  drawn : Bool := false
  closing : Bool := false
  past : List Sitting := []
  deriving DecidableEq, Repr

namespace Minutes

def write (m : Minutes) (command : Command) : Minutes :=
  { m with toDialogue := m.asks command, drawn := false }

/-- The session depends on the exchange in hand: it is neither a bogus question nor the
farewell. -/
def depends (m : Minutes) : Bool := !m.closing && !m.due.any isBogus

def fails (m : Minutes) : Minutes :=
  { m with
    upset := m.upset || m.due = some .startTLS
    sitting := { m.sitting with severed := m.sitting.severed || m.sitting.replied && m.depends } }

/-- The reply to a real recipient, which a domain limit leaves unanswered. -/
def take (m : Minutes) (h : Heard) : Minutes :=
  if h.limit then m else { m with sitting := { m.sitting with answers := m.sitting.answers ++ [h] } }

def hear (m : Minutes) (reply : Reply) : Minutes :=
  let noted : Minutes := { m with sitting := { m.sitting with replied := true } }
  match m.due with
  | some (.rcpt addr) => noted.take { addr := addr, reply := reply, further := m.further }
  | _ => noted

/-- A token for the next recipient is refused, unless it was for a random name. -/
def unpaid (m : Minutes) : Minutes :=
  { m with
    drawn := false
    sitting := { m.sitting with late := m.sitting.late || (m.sitting.answers ≠ [] && !m.drawn) } }

def leaves (m : Minutes) (rest : List Str) : Minutes :=
  if m.upset then m else { m with past := m.past ++ [{ m.sitting with rest := rest }] }

def next (m : Minutes) : Event calls → Minutes
  | ⟨.enter groups grouped, _⟩ =>
    { grouped := grouped
      sitting := { addrs := groups.flatMap SessionGroup.addrs, rerun := m.upset }
      past := m.past }
  | ⟨.leave rest, _⟩ => m.leaves rest
  | ⟨.acquire _ _, .error _⟩ => m.unpaid
  | ⟨.acquire _ _, .ok _⟩ => { m with drawn := false }
  | ⟨.dialContext _ _ _, _⟩ => { m with due := none, mails := 0 }
  | ⟨.setWriteDeadline _ _, _⟩ => { m with closing := true }
  | ⟨.write _ command, .error _⟩ => (m.write command).fails
  | ⟨.write _ command, .ok _⟩ => m.write command
  | ⟨.readReply _, .error _⟩ => m.fails
  | ⟨.readReply _, .ok reply⟩ => m.hear reply
  | ⟨.handshake _ _ _, .error _⟩ => { m with upset := true }
  | ⟨.randRead, .ok _⟩ => { m with drawn := true }
  | _ => m

end Minutes

structure Result.Unstamped (r : Result) : Prop where
  catchAll : r.catchAll = none
  randomiser : r.randomiser = none

def Judged (verdicts : Verdicts) : Prop :=
  ∀ domain v, verdicts.lookup domain = some v → ∃ accepted answered, v = decideCatchAll accepted answered

lemma Judged.empty : Judged ∅ := fun _ _ found => by cases found

lemma Judged.insert {verdicts : Verdicts} {domain : Str} {v : CatchAllVerdict} (judged : Judged verdicts)
    (own : ∃ accepted answered, v = decideCatchAll accepted answered) : Judged (verdicts.insert domain v) := by
  intro other w found
  rw [Table.lookup_insert_ite] at found
  split at found
  · cases found
    exact own
  · exact judged other w found

section
variable [Unicode]

def Heard.blames (o : Options) (h : Heard) : Bool := !h.relay && o.classOf h.reply = .policy

def policyRun (o : Options) (answers : List Heard) : Nat := (answers.reverse.takeWhile (Heard.blames o)).length

def Sitting.Stopped (o : Options) (stop : Int) (s : Sitting) : Prop := 0 < stop ∧ stop ≤ policyRun o s.answers

instance (o : Options) (stop : Int) (s : Sitting) : Decidable (s.Stopped o stop) :=
  inferInstanceAs (Decidable (_ ∧ _))

/-- The minutes are kept, and a session that is stopped asks nothing more. -/
def sittings (o : Options) (stop : Int) : World calls Minutes := fun m e m' =>
  m' = m.next e ∧ (m.sitting.Stopped o stop → e.op.asks = false)

inductive Cause (o : Options) (s : Sitting) : Result → Prop where
  | barred {cls : Class} {why : Str} : cls = .guarded ∨ cls = .ipBurned → Cause o s (failure o cls 0 [] why)
  | unpaid {err : Failure} : Cause o s (budgetFailure o err)
  | late {err : Failure} : s.late = true → Cause o s (dropped (budgetClass err) err)
  | unreached {err : Failure} : s.replied = false ∨ s.severed = true → Cause o s (dropped (classifyNetErr err) err)
  | turned {reply : Reply} : Cause o s (failure o (beforeRCPT o reply) reply.code reply.text [])

inductive Origin (o : Options) (stop : Int) (s : Sitting) (addr : Str) (r : Result) : Prop where
  | answered {h : Heard} : h ∈ s.answers → h.addr = addr → r.SameAnswer (h.result o) → Origin o stop s addr r
  | stopped : s.Stopped o stop → (s.addrs.Nodup → addr ∉ s.answers.map Heard.addr) →
      r.SameAnswer (stoppedFor (policyRun o s.answers)) → Origin o stop s addr r
  | lost {base : Result} : ¬ s.Stopped o stop → (s.addrs.Nodup → addr ∉ s.answers.map Heard.addr) →
      Cause o s base → r.SameAnswer base → Origin o stop s addr r

structure Outcome (o : Options) (stop : Int) (s : Sitting) (explains : Str → Result → Prop) (results : Results) :
    Prop where
  explained : ∀ addr r, results.lookup addr = some r → explains addr r
  unstamped : ∀ addr r, results.lookup addr = some r → r.Unstamped
  covers : ∀ addr ∈ s.addrs, addr ∈ s.rest ∨ (results.lookup addr).isSome = true
  within : ∀ addr r, results.lookup addr = some r → addr ∈ s.addrs
  asked : s.answers.map Heard.addr <+: s.addrs
  suffix : s.rest <:+ s.addrs
  whole : s.Stopped o stop → s.rest = []

variable {o : Options} {stop : Int} {s : Sitting} {addr : Str} {r base : Result} {p : Progress} {left : List Str}

lemma policyRun_snoc (answers : List Heard) (h : Heard) :
    policyRun o (answers ++ [h]) = if h.blames o then policyRun o answers + 1 else 0 := by
  rw [policyRun, List.reverse_append, List.reverse_singleton, List.singleton_append, List.takeWhile_cons]
  split <;> rfl

lemma Sitting.not_stopped (none : policyRun o s.answers = 0) : ¬ s.Stopped o stop := by
  rintro ⟨positive, reached⟩
  rw [none] at reached
  omega

lemma failure_unreached (err : Failure) :
    failure o (classifyNetErr err) 0 [] err.text = dropped (classifyNetErr err) err := by
  have none : enhancedCode [] = [] := rfl
  unfold classifyNetErr
  split <;> simp [failure, dropped, none, retryHint]

lemma booked_covers {answers : List Heard} (member : addr ∈ answers.map Heard.addr) :
    ((booked o answers).lookup addr).isSome = true := by
  induction answers using List.reverseRecOn with
  | nil => cases member
  | append_singleton answers h ih =>
    rw [booked_snoc, Table.lookup_insert_ite]
    split
    · rfl
    · rename_i other
      refine ih ?_
      rw [List.map_append, List.mem_append, List.map_singleton, List.mem_singleton] at member
      exact member.resolve_right other

lemma booked_unstamped {answers : List Heard} (found : (booked o answers).lookup addr = some r) : r.Unstamped := by
  obtain ⟨h, -, -, rfl⟩ := booked_from found
  unfold Heard.result answerResult
  dsimp only
  split <;> exact ⟨rfl, rfl⟩

lemma Cause.unstamped (cause : Cause o s base) : base.Unstamped := by
  cases cause with
  | unpaid =>
    unfold budgetFailure applyRetryAfter
    split <;> exact ⟨rfl, rfl⟩
  | _ => exact ⟨rfl, rfl⟩

lemma Outcome.handBack (whole : s.addrs = s.answers.map Heard.addr ++ s.rest) (going : ¬ s.Stopped o stop) :
    Outcome o stop s (Origin o stop s) (booked o s.answers) where
  explained addr r found := by
    obtain ⟨h, member, same, rfl⟩ := booked_from found
    exact .answered member same .rfl
  unstamped addr r found := booked_unstamped found
  covers addr member := by
    rw [whole, List.mem_append] at member
    rcases member with answered | left
    · exact .inr (booked_covers answered)
    · exact .inl left
  within addr r found := by
    obtain ⟨h, member, rfl, -⟩ := booked_from found
    rw [whole]
    exact List.mem_append_left _ (List.mem_map_of_mem member)
  asked := ⟨_, whole.symm⟩
  suffix := ⟨_, whole.symm⟩
  whole stopped := absurd stopped going

lemma Outcome.giveUp (whole : s.addrs = s.answers.map Heard.addr ++ left) (rest : s.rest = [])
    (plain : r.Unstamped) (reason : ∀ addr, (s.addrs.Nodup → addr ∉ s.answers.map Heard.addr) → Origin o stop s addr r) :
    Outcome o stop s (Origin o stop s) (Table.setAll left r (booked o s.answers)) where
  explained addr r' found := by
    rw [Table.lookup_setAll] at found
    split at found
    · rename_i ahead
      cases found
      refine reason addr fun distinct answered => ?_
      rw [whole] at distinct
      exact List.disjoint_of_nodup_append distinct answered ahead
    · obtain ⟨h, member, same, rfl⟩ := booked_from found
      exact .answered member same .rfl
  unstamped addr r' found := by
    rw [Table.lookup_setAll] at found
    split at found
    · cases found
      exact plain
    · exact booked_unstamped found
  covers addr member := by
    rw [whole, List.mem_append] at member
    rw [Table.lookup_setAll]
    split
    · exact .inr rfl
    · rename_i behind
      exact .inr (booked_covers (member.resolve_right behind))
  within addr r' found := by
    rw [whole]
    rw [Table.lookup_setAll] at found
    split at found
    · rename_i ahead
      exact List.mem_append_right _ ahead
    · obtain ⟨h, member, rfl, -⟩ := booked_from found
      exact List.mem_append_left _ (List.mem_map_of_mem member)
  asked := ⟨_, whole.symm⟩
  suffix := rest ▸ List.nil_suffix
  whole _ := rest

lemma Outcome.mapVals {explains explains' : Str → Result → Prop} {results : Results} {f : Str → Result → Result}
    (outcome : Outcome o stop s explains results) (still : ∀ addr r, explains addr r → explains' addr (f addr r))
    (plain : ∀ addr r, r.Unstamped → (f addr r).Unstamped) :
    Outcome o stop s explains' (results.mapVals f) where
  explained addr r found := by
    rw [Table.lookup_mapVals] at found
    obtain ⟨before, here, rfl⟩ := Option.map_eq_some_iff.mp found
    exact still addr before (outcome.explained addr before here)
  unstamped addr r found := by
    rw [Table.lookup_mapVals] at found
    obtain ⟨before, here, rfl⟩ := Option.map_eq_some_iff.mp found
    exact plain addr before (outcome.unstamped addr before here)
  covers addr member := by
    rw [Table.lookup_mapVals, Option.isSome_map]
    exact outcome.covers addr member
  within addr r found := by
    rw [Table.lookup_mapVals] at found
    obtain ⟨before, here, -⟩ := Option.map_eq_some_iff.mp found
    exact outcome.within addr before here
  asked := outcome.asked
  suffix := outcome.suffix
  whole := outcome.whole

lemma Origin.same (origin : Origin o stop s addr base) (same : r.SameAnswer base) : Origin o stop s addr r := by
  cases origin with
  | answered member named answer => exact .answered member named (same.trans answer)
  | stopped full fresh answer => exact .stopped full fresh (same.trans answer)
  | lost going fresh cause answer => exact .lost going fresh cause (same.trans answer)

end

end EmailVerifier.Prober
