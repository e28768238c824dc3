import EmailVerifier.Prober.ProbeConduct
import EmailVerifier.Prober.Surroundings

/-! A verdict rests on an answer to the address's own question.

`Seen` reads a trace as a careful bystander would: which command the next reply
answers, whether this session's banner, EHLO and transaction were answered as they
should be, and the replies to real recipients given while all three stood.
-/

set_option autoImplicit false

namespace EmailVerifier.Prober
open Text Data Semantics

structure Seen where
  /-- What the next reply answers; no command for the banner. -/
  due : Option (Option Command) := none
  banner : Bool := false
  ehlo : Bool := false
  mail : Bool := false
  answers : List (Str × Reply) := []

def Seen.heardTo (s : Seen) (reply : Reply) : Option Command → Seen
  | none => { s with due := none, banner := reply.code = 220 }
  | some (.ehlo _) => { s with due := none, ehlo := reply.code = 250 }
  | some (.mailFrom _) => { s with due := none, mail := reply.code = 250 }
  | some (.rcpt addr) => { s with
      due := none
      answers := if s.banner && s.ehlo && s.mail then s.answers ++ [(addr, reply)] else s.answers }
  | some _ => { s with due := none }

def Seen.hear (s : Seen) (reply : Reply) : Seen :=
  match s.due with
  | none => s
  | some command => s.heardTo reply command

def endsTransaction : Command → Bool
  | .rset | .mailFrom _ => true
  | _ => false

def Seen.next (s : Seen) : Event calls → Seen
  | ⟨.enter _ _, _⟩ => { answers := s.answers }
  | ⟨.dialContext _ _ _, .ok _⟩ => { due := some none, answers := s.answers }
  | ⟨.handshake _ _ _, .ok _⟩ => { s with ehlo := false, mail := false }
  | ⟨.write _ command, .ok _⟩ => { s with
      due := some (some command)
      mail := s.mail && !endsTransaction command }
  | ⟨.readReply _, .ok reply⟩ => s.hear reply
  | ⟨.readReply _, .error _⟩ => { s with due := none }
  | _ => s

def seenIn (tr : Trace calls) : Seen := tr.foldl Seen.next {}

/-- The session so far has what a question in this state of the dialogue rests on. -/
def Stage.Rests (s : Seen) : Stage → Prop
  | .ready .greeted => s.banner = true
  | .ready .hailed => s.banner = true ∧ s.ehlo = true
  | .ready .mailed => s.banner = true ∧ s.ehlo = true ∧ s.mail = true
  | .awaiting none => s.due = some none
  | .awaiting (some (.ehlo helo)) => s.due = some (some (.ehlo helo)) ∧ s.banner = true
  | .awaiting (some (.rcpt addr)) =>
    s.due = some (some (.rcpt addr)) ∧ s.banner = true ∧ s.ehlo = true ∧ s.mail = true
  | .awaiting (some (.bogus addr)) =>
    s.due = some (some (.bogus addr)) ∧ s.banner = true ∧ s.ehlo = true ∧ s.mail = true
  | .awaiting (some command) => s.due = some (some command) ∧ s.banner = true ∧ s.ehlo = true
  | .upgrading => s.banner = true
  | .adrift => s.banner = true ∧ s.ehlo = true
  | _ => True

structure Agrees (s : Seen) (w : Watch) : Prop where
  answers : s.answers = w.answers
  rests : w.stage.Rests s

variable {c : Scope} {w w' : Watch} {e : Event calls} {tr : Trace calls} {s : Seen}

variable {command : Option Command} {reply : Reply} {addr : Str}

lemma Seen.hear_due (due : s.due = some command) (reply : Reply) : s.hear reply = s.heardTo reply command := by
  simp only [Seen.hear, due]

lemma Agrees.hear (agrees : Agrees s w) (due : w.stage = .awaiting command)
    (reply : Reply) : Agrees (s.hear reply) (w.hear command (.ok reply)) := by
  obtain ⟨answers, rests⟩ := agrees
  rw [due] at rests
  match command, rests with
  | none, due =>
    rw [Seen.hear_due due]
    refine ⟨answers, ?_⟩
    simp only [Watch.hear, heard]
    split
    · rename_i fine
      exact decide_eq_true fine
    · trivial
  | some (.ehlo helo), ⟨due, banner⟩ =>
    rw [Seen.hear_due due]
    refine ⟨answers, ?_⟩
    simp only [Watch.hear, heard]
    split
    · rename_i fine
      exact ⟨banner, decide_eq_true fine⟩
    · trivial
  | some .startTLS, ⟨due, banner, ehlo⟩ =>
    rw [Seen.hear_due due]
    refine ⟨answers, ?_⟩
    simp only [Watch.hear, heard]
    split
    · exact banner
    · exact ⟨banner, ehlo⟩
  | some (.mailFrom sender), ⟨due, banner, ehlo⟩ =>
    rw [Seen.hear_due due]
    refine ⟨answers, ?_⟩
    simp only [Watch.hear, heard]
    split
    · rename_i fine
      exact ⟨banner, ehlo, decide_eq_true fine⟩
    · trivial
  | some (.rcpt addr), ⟨due, banner, ehlo, mail⟩ =>
    rw [Seen.hear_due due]
    refine ⟨?_, banner, ehlo, mail⟩
    simp only [Seen.heardTo, Watch.hear, answersWith, banner, ehlo, mail, answers, Bool.and_self, if_true]
  | some (.bogus addr), ⟨due, banner, ehlo, mail⟩ =>
    rw [Seen.hear_due due]
    exact ⟨answers, banner, ehlo, mail⟩
  | some .rset, ⟨due, banner, ehlo⟩ =>
    rw [Seen.hear_due due]
    refine ⟨answers, ?_⟩
    simp only [Watch.hear, heard]
    split
    · exact ⟨banner, ehlo⟩
    · trivial
  | some .quit, ⟨due, _⟩ =>
    rw [Seen.hear_due due]
    exact ⟨answers, trivial⟩

lemma Agrees.sends {sent : Watch} {command : Command} {conn : Conn} (agrees : Agrees s w)
    (sends : Sends c w command sent) (a : Except Failure Unit) :
    Agrees (s.next ⟨.write conn command, a⟩) (sent.wrote command a) := by
  have answers : sent.answers = w.answers := by cases sends <;> rfl
  cases a with
  | error err =>
    refine ⟨agrees.answers.trans answers.symm, ?_⟩
    have rests := agrees.rests
    cases sends with
    | bogus mailed _ _ =>
      rw [mailed] at rests
      exact ⟨rests.1, rests.2.1⟩
    | _ => trivial
  | ok _ =>
    refine ⟨agrees.answers.trans answers.symm, ?_⟩
    have rests := agrees.rests
    cases sends with
    | ehlo greeted => rw [greeted] at rests; exact ⟨rfl, rests⟩
    | startTLS hailed => rw [hailed] at rests; exact ⟨rfl, rests⟩
    | mailFrom hailed => rw [hailed] at rests; exact ⟨rfl, rests⟩
    | rcpt mailed _ _ =>
      rw [mailed] at rests
      exact ⟨rfl, rests.1, rests.2.1, by simp [Seen.next, endsTransaction, rests.2.2]⟩
    | bogus mailed _ _ =>
      rw [mailed] at rests
      exact ⟨rfl, rests.1, rests.2.1, by simp [Seen.next, endsTransaction, rests.2.2]⟩
    | rset standing _ =>
      rcases standing with mailed | adrift
      · rw [mailed] at rests
        exact ⟨rfl, rests.1, rests.2.1⟩
      · rw [adrift] at rests
        exact ⟨rfl, rests⟩

lemma Agrees.next (agrees : Agrees s w) (step : Step c w e w') : Agrees (s.next e) w' := by
  cases step with
  | @aside _ o _ aside => cases o <;> first | exact agrees | cases aside
  | enter idle _ => exact ⟨agrees.answers, by rw [show _ = _ from idle.shut]; trivial⟩
  | write _ sends => exact agrees.sends sends _
  | @read _ _ command a _ due =>
    cases a with
    | ok reply => exact agrees.hear due reply
    | error err =>
      refine ⟨agrees.answers, ?_⟩
      have rests := agrees.rests
      rw [due] at rests
      match command, rests with
      | some (.bogus _), rests => exact ⟨rests.2.1, rests.2.2.1⟩
      | none, _ | some (.ehlo _), _ | some .startTLS, _ | some (.mailFrom _), _ | some (.rcpt _), _
      | some .rset, _ | some .quit, _ => trivial
  | upgraded _ upgrading =>
    have rests := agrees.rests
    rw [upgrading] at rests
    exact ⟨agrees.answers, rests⟩
  | @bye _ _ _ a _ leaving _ => cases a <;> exact ⟨agrees.answers, by rw [leaving]; trivial⟩
  | dialled _ => exact ⟨agrees.answers, rfl⟩
  | spurned _ _ => exact ⟨agrees.answers, trivial⟩
  | leaving _ _ => exact ⟨agrees.answers, trivial⟩
  | close _ => exact ⟨agrees.answers, trivial⟩
  | _ => exact ⟨agrees.answers, agrees.rests⟩

lemma seenIn_agrees (path : Path (Step c) {} tr w) : Agrees (seenIn tr) w :=
  path.traced (fun seen w => Agrees (seenIn seen) w) ⟨rfl, trivial⟩ fun seen w e w' agrees step => by
    have next := agrees.next step
    simpa [seenIn] using next

lemma Seen.heardTo_answers {reply' : Reply} (member : (addr, reply') ∈ (s.heardTo reply command).answers) :
    (addr, reply') ∈ s.answers ∨ reply' = reply := by
  match command, member with
  | none, member | some (.ehlo _), member | some .startTLS, member | some (.mailFrom _), member
  | some (.bogus _), member | some .rset, member | some .quit, member => exact .inl member
  | some (.rcpt other), member =>
    simp only [Seen.heardTo] at member
    split at member
    · rcases List.mem_append.mp member with old | new
      · exact .inl old
      · exact .inr (Prod.mk.inj (List.mem_singleton.mp new)).2
    · exact .inl member

lemma Seen.next_answers (member : (addr, reply) ∈ (s.next e).answers) :
    (addr, reply) ∈ s.answers ∨ ∃ conn, e = ⟨.readReply conn, .ok reply⟩ := by
  obtain ⟨o, a⟩ := e
  cases o with
  | readReply conn =>
    cases a with
    | error err => exact .inl member
    | ok read =>
      change (addr, reply) ∈ (s.hear read).answers at member
      unfold Seen.hear at member
      split at member
      · exact .inl member
      · rcases Seen.heardTo_answers member with old | rfl
        · exact .inl old
        · exact .inr ⟨conn, rfl⟩
  | write conn command => cases a <;> exact .inl member
  | dialContext network target timeout => cases a <;> exact .inl member
  | handshake conn name timeout => cases a <;> exact .inl member
  | _ => exact .inl member

lemma seenIn_formed {u v : Unit} (path : Path anyone u tr v)
    (member : (addr, reply) ∈ (seenIn tr).answers) : reply.Formed := by
  refine path.traced (fun seen _ => ∀ addr reply, (addr, reply) ∈ (seenIn seen).answers → reply.Formed)
    (by simp [seenIn]) ?_ addr reply member
  intro seen _ e _ formed readable addr reply member
  rw [seenIn, List.foldl_append, List.foldl_cons, List.foldl_nil] at member
  rcases Seen.next_answers member with old | ⟨conn, rfl⟩
  · exact formed addr reply old
  · exact readable

section
variable [Unicode] {o : Options}

lemma answerResult_verdict (reply : Reply) (relay : Bool) :
    let r := answerResult o reply relay
    (r.accepted.isSome ↔ r.cls.IsVerdict) ∧ (r.accepted = some true ↔ r.cls = .valid) ∧
      (r.cls.IsVerdict → classifyAs reply.code reply.text o.identity = r.cls) := by
  cases relay with
  | true => simp [answerResult, rcptResult, Class.IsVerdict]
  | false =>
    simp only [answerResult, rcptResult, Bool.false_eq_true, if_false, implies_true, and_true]
    cases classifyAs reply.code reply.text o.identity <;> simp [Class.IsVerdict]

/-- Verdict soundness: only valid and invalid accept or reject, and they rest on a
reply to the address's own RCPT, read in a session whose banner, EHLO and transaction
were answered as they should be. -/
theorem Probe_verdicts_sound {fuel : Nat} {req : Request} {tr : Trace calls} {response : Response}
    {addr : Str} {r : Result} (run : Runs anyone (Probe fuel o req) () tr (.done (some (.ok response))) ())
    (found : response.results.lookup addr = some r) :
    (r.accepted.isSome ↔ r.cls.IsVerdict) ∧ (r.accepted = some true ↔ r.cls = .valid) ∧
      (r.cls.IsVerdict → ∃ reply, (addr, reply) ∈ (seenIn tr).answers ∧ reply.Formed ∧
        classifyAs reply.code reply.text o.identity = r.cls) := by
  obtain ⟨w, path, finished⟩ := (Probe_follows fuel o req).path run
  have probed := Finished.probed finished response rfl
  cases probed.backed addr r found with
  | @answered reply relay member same =>
    obtain ⟨accepts, valid, classed⟩ := answerResult_verdict (o := o) reply relay
    have seen : (addr, reply) ∈ (seenIn tr).answers := (seenIn_agrees path).answers ▸ member
    rw [same]
    exact ⟨accepts, valid, fun verdict => ⟨reply, seen, seenIn_formed run.path seen, classed verdict⟩⟩
  | unanswered none =>
    have not_valid : r.cls ≠ .valid := fun valid => none.cls (.inl valid)
    simp [none.accepted, none.cls, not_valid]

end

-- A response that holds a valid address.
def findsValid (addr : Str) : Option (Except Str Response) → Bool
  | some (.ok response) => (response.results.lookup addr).any (·.cls = .valid)
  | _ => false

/-- Where everything is granted, the address is found valid, and by such a reply. -/
theorem granted_verdict_sound : ∃ tr response r,
    Runs anyone (Probe 1 {} oneAddress) () tr (.done (some (.ok response))) () ∧
    response.results.lookup (lit "a@b") = some r ∧ r.cls = .valid ∧
    ∃ reply, (lit "a@b", reply) ∈ (seenIn tr).answers ∧ reply.Formed ∧
      classifyAs reply.code reply.text ({} : Options).identity = .valid := by
  have run := play_anyone granting_readable (Probe 1 {} oneAddress) false
  have ends : findsValid (lit "a@b") ((Probe 1 {} oneAddress).play granting false).2.1 = true := by decide +kernel
  rcases ended : ((Probe 1 {} oneAddress).play granting false).2.1 with _ | err | response <;>
    rw [ended] at ends run
  · cases ends
  · cases ends
  · obtain ⟨r, found, isValid⟩ := (Option.any_eq_true _ _).mp ends
    have sound := (Probe_verdicts_sound run found).2.2 (.inl (of_decide_eq_true isValid))
    exact ⟨_, response, r, run, found, of_decide_eq_true isValid, of_decide_eq_true isValid ▸ sound⟩

end EmailVerifier.Prober
