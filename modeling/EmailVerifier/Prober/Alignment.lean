import EmailVerifier.Prober.ProbeConduct
import EmailVerifier.Prober.Surroundings

/-! Whether an address's result comes from the answer to its own question.

The server sends one chunk of bytes on connect and one after each command; the
client reads replies off what has arrived and not been read. Nothing in the code
ties a reply to a command: the two stay in step because nothing is left unread when
the next command goes out. A bogus question without an answer is the one place where
the session goes on without having made sure of that.
-/

set_option autoImplicit false

namespace EmailVerifier.Prober
open Text Data Semantics

structure Link where
  unread : Str := []
  /-- No further read returns anything. -/
  dead : Bool := false
  /-- How many domains of the session have no transaction yet. -/
  left : Nat := 0
  /-- Every chunk sent, with the command it answers; no command for the greeting. -/
  log : List (Option Command × Str) := []
  deriving DecidableEq

def OneChunk (chunk : Str) : Prop := ReplyText chunk ∨ ¬BeginsWithReply chunk

def Read.rest : Read → Str
  | .reply _ _ rest | .short _ rest | .bad _ rest => rest
  | .cut => []

/-- One read of the client. It may fail at any time, and a stream that stalls or ends
inside a line is of no further use. -/
inductive Link.Reads (l : Link) : Except Failure Reply → Link → Prop where
  | reply {code : Int} {text rest : Str} : l.dead = false → readReply l.unread = .reply code text rest →
      Link.Reads l (.ok ⟨code, text⟩) { l with unread := rest }
  | short {line rest : Str} {err : Failure} : l.dead = false → readReply l.unread = .short line rest →
      Link.Reads l (.error err) { l with unread := rest }
  | bad {line rest : Str} {err : Failure} : l.dead = false → readReply l.unread = .bad line rest →
      Link.Reads l (.error err) { l with unread := rest }
  | lost {err : Failure} : Link.Reads l (.error err) { l with dead := true }

def Link.greet (l : Link) (chunk : Str) : Link :=
  { l with unread := chunk, dead := false, log := l.log ++ [(none, chunk)] }

/-- A command goes out; a MAIL FROM opens the transaction of one more domain. -/
def Link.command (l : Link) : Command → Link
  | .mailFrom _ => { l with left := l.left - 1 }
  | _ => l

def Link.answer (l : Link) (command : Command) (chunk : Str) : Link :=
  { l.command command with unread := l.unread ++ chunk, log := l.log ++ [(some command, chunk)] }

def Serves (allowed : Link → Option Command → Str → Prop) (l : Link) : Event calls → Link → Prop
  | ⟨.enter groups _, _⟩, l' => l' = { l with left := groups.length }
  | ⟨.dialContext _ _ _, .ok _⟩, l' => ∃ chunk, allowed l none chunk ∧ l' = l.greet chunk
  | ⟨.write _ command, .ok _⟩, l' => ∃ chunk, allowed l (some command) chunk ∧ l' = l.answer command chunk
  | ⟨.write _ command, .error _⟩, l' => l' = l.command command
  | ⟨.readReply _, a⟩, l' => l.Reads a l'
  | ⟨.handshake _ _ _, .ok _⟩, l' => l' = { l with unread := [] }
  | _, l' => l' = l

def chunked : World calls Link := Serves fun _ _ chunk => OneChunk chunk

/-- With further domains to come, the chunk for a bogus recipient leaves nothing unread. -/
def TidyFor (l : Link) : Option Command → Str → Prop
  | some (.bogus _), chunk => 0 < l.left → (readReply chunk).rest = []
  | _, _ => True

def tidy : World calls Link := Serves fun l command chunk => OneChunk chunk ∧ TidyFor l command chunk

def Link.Drained (l : Link) : Prop := l.dead = true ∨ l.unread = []

def Link.Holds (l : Link) (command : Option Command) : Prop :=
  l.dead = true ∨ (command, l.unread) ∈ l.log ∧ OneChunk l.unread ∧ TidyFor l command l.unread

def Stage.Level (l : Link) : Stage → Prop
  | .ready _ => l.Drained
  | .awaiting command => l.Holds command
  | .adrift => 0 < l.left → l.Drained
  | _ => True

def Link.Answered (l : Link) (addr : Str) (reply : Reply) : Prop :=
  ∃ chunk, (some (.rcpt addr), chunk) ∈ l.log ∧ readReply chunk = .reply reply.code reply.text []

structure InStep (l : Link) (w : Watch) : Prop where
  left : l.left = w.groups - w.opened
  level : w.stage.Level l
  answers : ∀ addr reply, (addr, reply) ∈ w.answers → l.Answered addr reply

lemma OneChunk.whole {chunk text rest : Str} {code : Int} (one : OneChunk chunk)
    (read : readReply chunk = .reply code text rest) : rest = [] := by
  rcases one with formed | unformed
  · obtain ⟨code', text', -, whole⟩ := readReply_reply formed
    have all := whole []
    rw [List.append_nil, read] at all
    exact (Read.reply.inj all).2.2
  · exact absurd ((readReply_iff chunk).mp ⟨code, text, rest, read⟩) unformed

def Read.whole : Read → Bool
  | .reply _ _ rest => rest.isEmpty
  | _ => true

lemma oneChunk_iff (chunk : Str) : OneChunk chunk ↔ (readReply chunk).whole = true := by
  constructor
  · intro one
    cases read : readReply chunk with
    | reply code text rest => simp [Read.whole, one.whole read]
    | _ => rfl
  · intro whole
    by_cases begins : BeginsWithReply chunk
    · obtain ⟨code, text, rest, read⟩ := (readReply_iff chunk).mpr begins
      obtain ⟨reply, formed, same⟩ := readReplyFrom_sound read
      rw [read] at whole
      have empty : rest = [] := by simpa [Read.whole] using whole
      rw [empty, List.append_nil] at same
      exact .inl (same ▸ formed)
    · exact .inr begins

instance (chunk : Str) : Decidable (OneChunk chunk) := decidable_of_iff _ (oneChunk_iff chunk).symm

variable {c : Scope} {w w' : Watch} {l l' : Link} {e : Event calls} {tr : Trace calls}

@[simp] lemma Link.command_dead (l : Link) (command : Command) : (l.command command).dead = l.dead := by
  cases command <;> rfl

@[simp] lemma Link.command_log (l : Link) (command : Command) : (l.command command).log = l.log := by
  cases command <;> rfl

variable {reply : Reply} {command : Option Command} {sent : Watch}

lemma Link.Answered.mono {addr : Str} (answered : l.Answered addr reply)
    (kept : l.log <+: l'.log) : l'.Answered addr reply := by
  obtain ⟨chunk, member, read⟩ := answered
  exact ⟨chunk, kept.subset member, read⟩

lemma level_heard (drained : l.Drained) (command : Option Command) (code : Int) : (heard command code).Level l := by
  match command with
  | none | some (.ehlo _) | some .startTLS | some (.mailFrom _) | some .rset =>
    simp only [heard]
    split
    · first | exact drained | trivial
    · first | exact drained | trivial
  | some (.rcpt _) | some (.bogus _) => exact drained
  | some .quit => trivial

lemma answersWith_cases {answers : List (Str × Reply)} {reply' : Reply}
    {addr : Str} (member : (addr, reply') ∈ answersWith answers command reply) :
    (addr, reply') ∈ answers ∨ command = some (.rcpt addr) ∧ reply' = reply := by
  unfold answersWith at member
  split at member
  · rcases List.mem_append.mp member with old | new
    · exact .inl old
    · obtain ⟨rfl, rfl⟩ := Prod.mk.inj (List.mem_singleton.mp new)
      exact .inr ⟨rfl, rfl⟩
  · exact .inl member

section
variable (inStep : InStep l w)
include inStep

lemma InStep.heard (due : w.stage = .awaiting command) (reads : l.Reads (.ok reply) l') :
    InStep l' (w.hear command (.ok reply)) := by
  cases reads with
  | @reply code text rest alive read =>
    have holds := inStep.level
    rw [due] at holds
    obtain ⟨logged, one, -⟩ := holds.resolve_left (by simp [alive])
    have drained : rest = [] := one.whole read
    refine ⟨inStep.left, level_heard (.inr drained) command code, fun addr answer member => ?_⟩
    rcases answersWith_cases member with old | ⟨rfl, rfl⟩
    · exact inStep.answers addr answer old
    · exact ⟨l.unread, logged, drained ▸ read⟩

lemma InStep.unheard {err : Failure} (due : w.stage = .awaiting command) (reads : l.Reads (.error err) l') :
    InStep l' (w.hear command (.error err)) := by
  have holds := inStep.level
  rw [due] at holds
  have kept : l'.left = l.left ∧ l'.log = l.log := by cases reads <;> exact ⟨rfl, rfl⟩
  refine ⟨kept.1.trans inStep.left, ?_, fun addr reply member =>
    (inStep.answers addr reply member).mono (kept.2 ▸ List.prefix_rfl)⟩
  match command, holds with
  | some (.bogus bogus), holds =>
    intro more
    cases reads with
    | short alive read | bad alive read =>
      obtain ⟨-, -, tidy⟩ := holds.resolve_left (by simp [alive])
      have nothing := tidy more
      rw [read] at nothing
      exact .inr nothing
    | lost => exact .inl rfl
  | none, _ | some (.ehlo _), _ | some .startTLS, _ | some (.mailFrom _), _ | some (.rcpt _), _
  | some .rset, _ | some .quit, _ => trivial

lemma InStep.drained {command : Command} (sends : Sends c w command sent) : l.Drained := by
  have level := inStep.level
  have left := inStep.left
  cases sends with
  | ehlo ready | startTLS ready | mailFrom ready | rcpt ready _ _ | bogus ready _ _ =>
    rw [ready] at level
    exact level
  | rset ready more =>
    rcases ready with ready | adrift
    · rw [ready] at level
      exact level
    · rw [adrift] at level
      exact level (by omega)

lemma InStep.sends_left {command : Command} (sends : Sends c w command sent) :
    (l.command command).left = sent.groups - sent.opened := by
  have left := inStep.left
  cases sends with
  | mailFrom _ =>
    simp only [Link.command]
    omega
  | _ => exact left

lemma InStep.wrote {command : Command} {conn : Conn} {a : Except Failure Unit} (sends : Sends c w command sent) (served : tidy l ⟨.write conn command, a⟩ l') :
    InStep l' (sent.wrote command a) := by
  have drained := inStep.drained sends
  have left := inStep.sends_left sends
  have answers : sent.answers = w.answers := by cases sends <;> rfl
  cases a with
  | error err =>
    cases (show l' = l.command command from served)
    refine ⟨left, ?_, fun addr reply member => (inStep.answers addr reply (answers ▸ member)).mono (by simp)⟩
    match command with
    | .bogus _ => exact fun _ => drained
    | .ehlo _ | .startTLS | .mailFrom _ | .rcpt _ | .rset | .quit => trivial
  | ok _ =>
    obtain ⟨chunk, ⟨one, tidyFor⟩, rfl⟩ := served
    refine ⟨left, ?_, fun addr reply member => (inStep.answers addr reply (answers ▸ member)).mono (List.prefix_append _ _)⟩
    rcases drained with dead | empty
    · exact .inl (by simp [Link.answer, dead])
    · refine .inr ?_
      have alone : (l.answer command chunk).unread = chunk := by simp [Link.answer, empty]
      rw [alone]
      refine ⟨List.mem_append_right _ (List.mem_singleton.mpr rfl), one, ?_⟩
      match command, tidyFor with
      | .bogus _, tidyFor => exact tidyFor
      | .ehlo _, _ | .startTLS, _ | .mailFrom _, _ | .rcpt _, _ | .rset, _ | .quit, _ => trivial

end

lemma Aside.served {op : Op} {a : op.Answer} (aside : Aside op) (served : tidy l ⟨op, a⟩ l') : l' = l := by
  cases op <;> first | exact served | cases aside

/-- Client and server stay in step. -/
lemma InStep.next (inStep : InStep l w) (step : Step c w e w') (served : tidy l e l') : InStep l' w' := by
  obtain ⟨left, level, answers⟩ := inStep
  cases step with
  | aside aside =>
    cases aside.served served
    exact ⟨left, level, answers⟩
  | enter idle _ =>
    cases (show l' = _ from served)
    refine ⟨rfl, ?_, answers⟩
    rw [show _ = _ from idle.shut]
    trivial
  | write _ sends => exact InStep.wrote ⟨left, level, answers⟩ sends served
  | @read _ _ command a _ due =>
    cases a with
    | ok reply => exact InStep.heard ⟨left, level, answers⟩ due served
    | error err => exact InStep.unheard ⟨left, level, answers⟩ due served
  | dialled _ =>
    obtain ⟨chunk, ⟨one, -⟩, rfl⟩ := served
    exact ⟨left, .inr ⟨List.mem_append_right _ (List.mem_singleton.mpr rfl), one, trivial⟩,
      fun addr reply member => (answers addr reply member).mono (List.prefix_append _ _)⟩
  | upgraded _ _ =>
    cases (show l' = _ from served)
    exact ⟨left, .inr rfl, answers⟩
  | @bye _ _ command a _ leaving farewell =>
    -- Nothing is read once the session is on its way out.
    have kept : l'.left = l.left ∧ l.log <+: l'.log := by
      cases a with
      | error err =>
        cases (show l' = l.command command from served)
        rcases farewell with rfl | rfl <;> exact ⟨rfl, List.prefix_rfl⟩
      | ok _ =>
        obtain ⟨chunk, -, rfl⟩ := served
        rcases farewell with rfl | rfl <;> exact ⟨rfl, List.prefix_append _ _⟩
    refine ⟨kept.1.trans left, ?_, fun addr reply member => (answers addr reply member).mono kept.2⟩
    rw [leaving]
    trivial
  | spurned _ _ | leaving _ _ | close _ =>
    cases (show l' = l from served)
    exact ⟨left, trivial, answers⟩
  | _ =>
    cases (show l' = l from served)
    exact ⟨left, level, answers⟩

lemma inStep_of_paths (client : Path (Step c) {} tr w) (server : Path tidy {} tr l) : InStep l w := by
  refine (client.both server).keeps (fun s : Watch × Link => InStep s.2 s.1) ⟨rfl, trivial, by simp⟩ ?_
  intro s e t inStep step
  exact inStep.next step.1 step.2

section
variable [Unicode] {o : Options}

/-- The result is the reading of the chunk sent for the address's own RCPT. -/
def FromOwnChunk (o : Options) (l : Link) (addr : Str) (r : Result) : Prop :=
  ∃ reply relay, l.Answered addr reply ∧ r.SameAnswer (answerResult o reply relay)

/-- Where bogus recipients are answered tidily, every result that reports an answer is
the reading of the chunk sent for that address. -/
theorem Probe_results_aligned {fuel : Nat} {req : Request} {tr : Trace calls} {response : Response}
    {l : Link} {addr : Str} {r : Result} (run : Runs tidy (Probe fuel o req) {} tr (.done (some (.ok response))) l)
    (found : response.results.lookup addr = some r) (connected : r.connected = some true) : FromOwnChunk o l addr r := by
  obtain ⟨w, path, finished⟩ := (Probe_follows fuel o req).path run
  have inStep := inStep_of_paths path run.path
  have probed := Finished.probed finished response rfl
  cases probed.backed addr r found with
  | @answered reply relay member same => exact ⟨reply, relay, inStep.answers addr reply member, same⟩
  | unanswered none => exact absurd (none.connected.symm.trans connected) (by simp)

end

def Link.read (l : Link) : Except Failure Reply × Link :=
  if l.dead then (.error broken, { l with dead := true })
  else match readReply l.unread with
    | .reply code text rest => (.ok ⟨code, text⟩, { l with unread := rest })
    | .short _ rest | .bad _ rest => (.error broken, { l with unread := rest })
    | .cut => (.error broken, { l with dead := true })

lemma Link.read_reads (l : Link) : l.Reads l.read.1 l.read.2 := by
  unfold Link.read
  split
  · exact .lost
  · rename_i dead
    have alive : l.dead = false := by simpa using dead
    split
    · rename_i read
      exact .reply alive read
    · rename_i read
      exact .short alive read
    · rename_i read
      exact .bad alive read
    · exact .lost

def serving (script : Option Command → Str) : Player calls Link := fun l op => match op with
  | .enter groups _ => ((), { l with left := groups.length })
  | .dialContext _ _ _ => (.ok 0, l.greet (script none))
  | .write _ command => (.ok (), l.answer command (script (some command)))
  | .readReply _ => l.read
  | .handshake _ _ _ => (.ok true, { l with unread := [] })
  | .fallenLoad _ => (false, l)
  | other => ((granting false other).1, l)

lemma serving_serves {allowed : Link → Option Command → Str → Prop} {script : Option Command → Str}
    (allows : ∀ l command, allowed l command (script command)) (l : Link) (op : Op) :
    Serves allowed l ⟨op, (serving script l op).1⟩ (serving script l op).2 := by
  cases op with
  | dialContext _ _ _ => exact ⟨_, allows l none, rfl⟩
  | write _ command => exact ⟨_, allows l (some command), rfl⟩
  | readReply _ => exact l.read_reads
  | _ => rfl

def twoDomains : Request where
  mxHost := lit "mx"
  domains := [⟨lit "c", [lit "a@c"], true⟩, ⟨lit "d", [lit "b@d"], false⟩]

def groupedOptions : Options where
  multiDomain := some fun _ => (lit "mx", true)

/-- The second address does not exist; a bogus recipient gets the answer `bogus`. -/
def scriptWith (bogus : Str) : Option Command → Str
  | none => lit "220\r\n"
  | some (.bogus _) => bogus
  | some (.rcpt addr) => if addr = lit "b@d" then lit "550\r\n" else lit "250\r\n"
  | some _ => lit "250\r\n"

lemma scriptWith_oneChunk {bogus : Str} (one : OneChunk bogus) (command : Option Command) :
    OneChunk (scriptWith bogus command) := by
  match command with
  | none => exact (by decide : OneChunk (lit "220\r\n"))
  | some (.bogus _) => exact one
  | some (.rcpt addr) =>
    simp only [scriptWith]
    split <;> decide
  | some (.ehlo _) | some .startTLS | some (.mailFrom _) | some .rset | some .quit =>
    exact (by decide : OneChunk (lit "250\r\n"))

def scripted (bogus : Str) : Trace calls × Option (Except Str Response) × Link :=
  (Probe 2 groupedOptions twoDomains).play (serving (scriptWith bogus)) {}

lemma scripted_runs {allowed : Link → Option Command → Str → Prop} (bogus : Str)
    (allows : ∀ l command, allowed l command (scriptWith bogus command)) :
    Runs (Serves allowed) (Probe 2 groupedOptions twoDomains) {} (scripted bogus).1
      (.done (scripted bogus).2.1) (scripted bogus).2.2 :=
  Prog.play_runs id (serving_serves allows) _ _

def secondResult : Option (Except Str Response) → Option Result
  | some (.ok response) => response.results.lookup (lit "b@d")
  | _ => none

lemma secondResult_some {found : Option (Except Str Response)} {r : Result} (second : secondResult found = some r) :
    ∃ response, found = some (.ok response) ∧ response.results.lookup (lit "b@d") = some r := by
  match found, second with
  | some (.ok response), second => exact ⟨response, rfl, second⟩

/-- Bogus recipients rejected outright leave the second address its own answer. -/
theorem rejected_bogus_aligned : ∃ tr response l r,
    Runs tidy (Probe 2 groupedOptions twoDomains) {} tr (.done (some (.ok response))) l ∧
    response.results.lookup (lit "b@d") = some r ∧ r.connected = some true ∧ r.cls = .invalid ∧
    FromOwnChunk groupedOptions l (lit "b@d") r := by
  have nothingLeft : (readReply (lit "550\r\n")).rest = [] := by decide
  have run : Runs tidy _ _ _ _ _ := scripted_runs (lit "550\r\n") fun l command =>
    ⟨scriptWith_oneChunk (by decide) command, by
      match command with
      | some (.bogus _) => exact fun _ => nothingLeft
      | none | some (.rcpt _) | some (.ehlo _) | some .startTLS | some (.mailFrom _) | some .rset
      | some .quit => trivial⟩
  have second : (secondResult (scripted (lit "550\r\n")).2.1).any
      (fun r => r.connected = some true ∧ r.cls = .invalid) = true := by decide +kernel
  obtain ⟨r, is, answered⟩ := (Option.any_eq_true _ _).mp second
  obtain ⟨connected, invalid⟩ := of_decide_eq_true answered
  obtain ⟨response, ended, found⟩ := secondResult_some is
  rw [ended] at run
  exact ⟨_, response, _, r, run, found, connected, invalid, Probe_results_aligned run found connected⟩

def malformed : Str := lit "x\r\n250\r\n250\r\n250\r\n"

/-- The second address is found valid by bytes left over from the bogus recipient of the
first domain; the server's answer about it was 550. -/
theorem leftover_counts_as_answer : ∃ tr response l r,
    Runs chunked (Probe 2 groupedOptions twoDomains) {} tr (.done (some (.ok response))) l ∧
    response.results.lookup (lit "b@d") = some r ∧ r.connected = some true ∧ r.cls = .valid ∧
    ¬FromOwnChunk groupedOptions l (lit "b@d") r := by
  have run : Runs chunked _ _ _ _ _ :=
    scripted_runs malformed fun l command => scriptWith_oneChunk (by decide) command
  have second : (secondResult (scripted malformed).2.1).any
      (fun r => r.connected = some true ∧ r.cls = .valid ∧ r.smtpCode = 250) = true := by decide +kernel
  have sent : ∀ e ∈ (scripted malformed).2.2.log, e.1 = some (.rcpt (lit "b@d")) → e.2 = lit "550\r\n" := by
    decide +kernel
  obtain ⟨r, is, answered⟩ := (Option.any_eq_true _ _).mp second
  obtain ⟨connected, valid, code⟩ := of_decide_eq_true answered
  obtain ⟨response, ended, found⟩ := secondResult_some is
  rw [ended] at run
  refine ⟨_, response, _, r, run, found, connected, valid, ?_⟩
  rintro ⟨reply, relay, ⟨chunk, member, read⟩, same⟩
  have rejected : reply.code = 550 := by
    have own : chunk = lit "550\r\n" := sent _ member rfl
    rw [own, show readReply (lit "550\r\n") = .reply 550 (lit "550") [] by decide] at read
    exact (Read.reply.inj read).1.symm
  have from_ : r.smtpCode = reply.code := by
    rw [show r = _ from same]
    cases relay <;> rfl
  rw [code, rejected] at from_
  exact absurd from_ (by decide)

end EmailVerifier.Prober
